import Bantam.SymbolTable

/-! Guarded scopes. Calls on a table that go on in a scope of their own, and that close no scope
they did not open, leave the table as it was when the scope is closed behind them. Until then a name
stands for the latest of its bindings whose scope is still open, or else for what it stood for
before. Both follow from two equations for the table behind any events whatever. -/
namespace Bantam.SymbolTable
variable {α : Type}

inductive Query (α : Type)
  | peek (name : String)
  | chain (name : String)
  | inherited (resolve : Nat → Option (SymbolTable α)) (tables : Nat) (name : String)

def Query.answer (table : SymbolTable α) : Query α → Option α
  | peek name => table.peek name
  | chain name => table.lookupChain name
  | inherited resolve tables name => lookup resolve name tables table

/-- A call on a table. A guard holds for a list of calls. -/
inductive Call (α : Type)
  | add (name : String) (value : α)
  | push
  | pop
  | ask (query : Query α)
  | guarded (calls : List (Call α))

mutual

/-- The answers that a call gives, and the table behind it. -/
def Call.perform : Call α → SymbolTable α → List (Option α) × SymbolTable α
  | .add name value, table => ([], table.add name value)
  | .push, table => ([], table.push)
  | .pop, table => ([], table.pop)
  | .ask query, table => ([query.answer table], table)
  | .guarded calls, table => table.inScope (performAll calls)

def performAll : List (Call α) → SymbolTable α → List (Option α) × SymbolTable α
  | [], table => ([], table)
  | call :: calls, table =>
    let (answers, behind) := call.perform table
    let (others, last) := performAll calls behind
    (answers ++ others, last)

end

/-- What happens to a table. A guard opens a scope and closes one. -/
inductive Event (α : Type)
  | opened
  | closed
  | bound (name : String) (value : α)
  | asked (query : Query α)

mutual

def Call.events : Call α → List (Event α)
  | .add name value => [.bound name value]
  | .push => [.opened]
  | .pop => [.closed]
  | .ask query => [.asked query]
  | .guarded calls => .opened :: (eventsOf calls ++ [.closed])

def eventsOf : List (Call α) → List (Event α)
  | [] => []
  | call :: calls => call.events ++ eventsOf calls

end

def Event.change : Event α → Int
  | opened => 1
  | closed => -1
  | _ => 0

def net : List (Event α) → Int
  | [] => 0
  | event :: rest => event.change + net rest

/-- At no point were more scopes closed than had been opened. -/
def StaysOpen (events : List (Event α)) : Prop := ∀ part, part <+: events → 0 ≤ net part

structure Balanced (events : List (Event α)) : Prop where
  stays : StaysOpen events
  level : net events = 0

/-- A binding whose scope is still open. -/
def StillBinds (events : List (Event α)) (name : String) (value : α) : Prop :=
  ∃ earlier later, events = earlier ++ .bound name value :: later ∧ StaysOpen later

def LastBinds (events : List (Event α)) (name : String) (value : α) : Prop :=
  ∃ earlier later, events = earlier ++ .bound name value :: later ∧ StaysOpen later ∧
    ∀ other, ¬ StillBinds later name other

def Event.isQuestion : Event α → Bool
  | asked _ => true
  | _ => false

/-- A guard for some calls puts everything back. Meanwhile the answer to each question for a name is
the latest binding of it that is still open, or else the one from before the guard. -/
structure Guards (table : SymbolTable α) (calls : List (Call α)) : Prop where
  restored : (table.inScope (performAll calls)).2 = table
  all_answered : (table.inScope (performAll calls)).1.length =
    (eventsOf calls).countP Event.isQuestion
  answered : ∀ earlier name later, eventsOf calls = earlier ++ .asked (.chain name) :: later →
    ∃ answer,
      (table.inScope (performAll calls)).1[earlier.countP Event.isQuestion]? = some answer ∧
      ∀ value, answer = some value ↔
        LastBinds earlier name value ∨
          (∀ other, ¬ StillBinds earlier name other) ∧ table.lookupChain name = some value

@[simp] theorem net_nil : net ([] : List (Event α)) = 0 := rfl

@[simp] theorem net_cons (event : Event α) (events : List (Event α)) :
    net (event :: events) = event.change + net events := rfl

def reached : List (Event α) → Nat
  | [] => 0
  | .opened :: rest => reached rest - 1
  | .closed :: rest => reached rest + 1
  | .bound _ _ :: rest | .asked _ :: rest => reached rest

def leftOpen : List (Event α) → Nat
  | [] => 0
  | .opened :: rest => if reached rest = 0 then leftOpen rest + 1 else leftOpen rest
  | .closed :: rest | .bound _ _ :: rest | .asked _ :: rest => leftOpen rest

theorem net_eq (events : List (Event α)) : net events = leftOpen events - reached events := by
  induction events with
  | nil => rfl
  | cons event rest ih =>
    rw [net_cons, ih]
    cases event with
    | opened =>
      simp only [Event.change, leftOpen, reached]
      split <;> omega
    | closed =>
      simp only [Event.change, leftOpen, reached]
      omega
    | bound | asked => exact Int.zero_add _

theorem reached_le_iff (events : List (Event α)) (depth : Nat) :
    reached events ≤ depth ↔ ∀ part, part <+: events → 0 ≤ net part + depth := by
  induction events generalizing depth with
  | nil => simp [reached]
  | cons event rest ih =>
    have parts : (∀ part, part <+: event :: rest → 0 ≤ net part + depth) ↔
        ∀ part, part <+: rest → 0 ≤ event.change + net part + depth := by
      simp only [List.prefix_cons_iff]
      constructor
      · intro all part isPrefix
        simpa using all (event :: part) (.inr ⟨part, rfl, isPrefix⟩)
      · rintro all part (rfl | ⟨part, rfl, isPrefix⟩)
        · simp
        · simpa using all part isPrefix
    rw [parts]
    cases event with
    | opened =>
      rw [reached, Nat.sub_le_iff_le_add, ih]
      refine forall₂_congr fun part _ => ?_
      simp only [Event.change]
      omega
    | closed =>
      rw [reached]
      cases depth with
      | zero =>
        refine iff_of_false (Nat.not_succ_le_zero _) fun all => ?_
        have := all [] (List.nil_prefix)
        simp [Event.change] at this
      | succ depth =>
        rw [Nat.add_le_add_iff_right, ih]
        refine forall₂_congr fun part _ => ?_
        simp only [Event.change]
        omega
    | bound | asked => simpa [reached, Event.change] using ih depth

theorem staysOpen_iff (events : List (Event α)) : StaysOpen events ↔ reached events = 0 := by
  simpa [StaysOpen] using (reached_le_iff events 0).symm

theorem balanced_iff (events : List (Event α)) :
    Balanced events ↔ reached events = 0 ∧ leftOpen events = 0 := by
  constructor
  · intro balanced
    have stays := (staysOpen_iff events).mp balanced.stays
    have level := balanced.level
    rw [net_eq] at level
    omega
  · rintro ⟨stays, left⟩
    refine ⟨(staysOpen_iff events).mpr stays, ?_⟩
    rw [net_eq, stays, left]
    simp

def Event.apply (table : SymbolTable α) : Event α → SymbolTable α
  | opened => table.push
  | closed => table.pop
  | bound name value => table.add name value
  | asked _ => table

def behind (table : SymbolTable α) (events : List (Event α)) : SymbolTable α :=
  events.foldl Event.apply table

theorem behind_cons (table : SymbolTable α) (event : Event α) (events : List (Event α)) :
    behind table (event :: events) = behind (event.apply table) events := rfl

theorem behind_append (table : SymbolTable α) (earlier later : List (Event α)) :
    behind table (earlier ++ later) = behind (behind table earlier) later :=
  List.foldl_append

/-- A table without its innermost scopes. -/
def outer (table : SymbolTable α) (scopes : Nat) : SymbolTable α :=
  { table with scopes := table.scopes.drop scopes }

@[simp] theorem outer_zero (table : SymbolTable α) : table.outer 0 = table := rfl

@[simp] theorem outer_one (table : SymbolTable α) : table.outer 1 = table.pop := by
  simp [outer, pop]

@[simp] theorem outer_pop (table : SymbolTable α) (scopes : Nat) :
    table.pop.outer scopes = table.outer (scopes + 1) := by
  simp [outer, pop]

@[simp] theorem pop_outer (table : SymbolTable α) (scopes : Nat) :
    (table.outer scopes).pop = table.outer (scopes + 1) := by
  simp [outer, pop]

@[simp] theorem outer_push (table : SymbolTable α) (scopes : Nat) :
    table.push.outer (scopes + 1) = table.outer scopes := by
  rw [← outer_pop, pop_push]

@[simp] theorem outer_add (table : SymbolTable α) (name : String) (value : α) (scopes : Nat) :
    (table.add name value).outer (scopes + 1) = table.outer (scopes + 1) := by
  rw [← outer_pop, pop_add, outer_pop]

/-- All scopes but the innermost of those that events neither open nor close are as they were. -/
theorem outer_behind (table : SymbolTable α) (events : List (Event α)) :
    (behind table events).outer (leftOpen events + 1) = table.outer (reached events + 1) := by
  induction events generalizing table with
  | nil => rfl
  | cons event rest ih =>
    rw [behind_cons]
    cases event with
    | opened =>
      have inner := ih table.push
      rw [leftOpen, reached]
      split
      · next stays =>
        rw [stays, Nat.zero_add, outer_push, outer_zero] at inner
        rw [stays, Event.apply, ← pop_outer, inner, Nat.zero_sub, Nat.zero_add, outer_one]
      · next closes =>
        rw [Event.apply, inner, outer_push, Nat.sub_add_cancel (Nat.pos_of_ne_zero closes)]
    | closed =>
      rw [leftOpen, reached, Event.apply, ih, outer_pop]
    | bound name value =>
      rw [leftOpen, reached, Event.apply, ih, outer_add]
    | asked query => exact ih table

/-- The latest binding of a name that is still open. -/
def latest (name : String) : List (Event α) → Option α
  | [] => none
  | .bound other value :: rest =>
    (latest name rest).or (if name = other ∧ reached rest = 0 then some value else none)
  | .opened :: rest | .closed :: rest | .asked _ :: rest => latest name rest

theorem lookupChain_behind (table : SymbolTable α) (name : String) (events : List (Event α)) :
    (behind table events).lookupChain name =
      (latest name events).or ((table.outer (reached events)).lookupChain name) := by
  induction events generalizing table with
  | nil => rfl
  | cons event rest ih =>
    rw [behind_cons, ih]
    cases event with
    | opened =>
      rw [Event.apply, latest, reached]
      cases reached rest with
      | zero => simp
      | succ scopes => simp
    | closed =>
      rw [Event.apply, latest, reached, outer_pop]
    | bound other value =>
      rw [Event.apply, latest, reached, Option.or_assoc]
      cases reached rest with
      | zero =>
        rw [outer_zero, lookupChain_add]
        split <;> simp [*]
      | succ scopes => simp
    | asked query => rfl

-- The latest binding that is still open is said by what came before and behind it.
section Bindings
variable {event : Event α} {rest : List (Event α)} {name : String} {value : α}

theorem stillBinds_cons : StillBinds (event :: rest) name value ↔
    event = .bound name value ∧ StaysOpen rest ∨ StillBinds rest name value := by
  constructor
  · rintro ⟨earlier, later, split, stays⟩
    rcases List.cons_eq_append_iff.mp split with ⟨-, here⟩ | ⟨others, -, further⟩
    · obtain ⟨rfl, rfl⟩ := List.cons.inj here
      exact .inl ⟨rfl, stays⟩
    · exact .inr ⟨others, later, further, stays⟩
  · rintro (⟨rfl, stays⟩ | ⟨earlier, later, rfl, stays⟩)
    · exact ⟨[], rest, rfl, stays⟩
    · exact ⟨event :: earlier, later, rfl, stays⟩

theorem lastBinds_cons : LastBinds (event :: rest) name value ↔
    event = .bound name value ∧ StaysOpen rest ∧ (∀ other, ¬ StillBinds rest name other) ∨
      LastBinds rest name value := by
  constructor
  · rintro ⟨earlier, later, split, stays, last⟩
    rcases List.cons_eq_append_iff.mp split with ⟨-, here⟩ | ⟨others, -, further⟩
    · obtain ⟨rfl, rfl⟩ := List.cons.inj here
      exact .inl ⟨rfl, stays, last⟩
    · exact .inr ⟨others, later, further, stays, last⟩
  · rintro (⟨rfl, stays, last⟩ | ⟨earlier, later, rfl, stays, last⟩)
    · exact ⟨[], rest, rfl, stays, last⟩
    · exact ⟨event :: earlier, later, rfl, stays, last⟩

end Bindings

theorem latest_eq_none (name : String) (events : List (Event α)) :
    latest name events = none ↔ ∀ value, ¬ StillBinds events name value := by
  induction events with
  | nil => simp [latest, StillBinds]
  | cons event rest ih =>
    simp only [stillBinds_cons, staysOpen_iff, not_or, forall_and, ← ih]
    cases event with
    | bound other value =>
      rw [latest, Option.or_eq_none_iff]
      constructor
      · rintro ⟨further, here⟩
        refine ⟨?_, further⟩
        rintro _ ⟨⟨rfl, rfl⟩, stays⟩
        simp [stays] at here
      · rintro ⟨here, further⟩
        refine ⟨further, if_neg ?_⟩
        rintro ⟨rfl, stays⟩
        exact here value ⟨rfl, stays⟩
    | opened | closed | asked => simp [latest]

theorem latest_eq_some (name : String) (events : List (Event α)) (value : α) :
    latest name events = some value ↔ LastBinds events name value := by
  induction events with
  | nil => simp [latest, LastBinds]
  | cons event rest ih =>
    rw [lastBinds_cons, staysOpen_iff, ← ih, ← latest_eq_none]
    cases event with
    | bound other bound =>
      rw [latest, Option.or_eq_some_iff, or_comm]
      refine or_congr_left ?_
      constructor
      · rintro ⟨further, here⟩
        obtain ⟨⟨rfl, stays⟩, same⟩ := Option.ite_none_right_eq_some.mp here
        obtain rfl := Option.some.inj same
        exact ⟨rfl, stays, further⟩
      · rintro ⟨here, stays, further⟩
        obtain ⟨rfl, rfl⟩ := Event.bound.inj here
        exact ⟨further, by simp [stays]⟩
    | opened | closed | asked => simp [latest]

def answers (table : SymbolTable α) : List (Event α) → List (Option α)
  | [] => []
  | .asked query :: rest => query.answer table :: answers table rest
  | event :: rest => answers (event.apply table) rest

theorem answers_append (table : SymbolTable α) (earlier later : List (Event α)) :
    answers table (earlier ++ later) =
      answers table earlier ++ answers (behind table earlier) later := by
  induction earlier generalizing table with
  | nil => rfl
  | cons event rest ih =>
    cases event with
    | asked query => exact congrArg _ (ih table)
    | opened | closed | bound => exact ih _

theorem length_answers (table : SymbolTable α) (events : List (Event α)) :
    (answers table events).length = events.countP Event.isQuestion := by
  induction events generalizing table with
  | nil => rfl
  | cons event rest ih =>
    rw [List.countP_cons]
    cases event with
    | asked query => exact congrArg (· + 1) (ih table)
    | opened | closed | bound => exact ih _

mutual

theorem perform_eq (call : Call α) (table : SymbolTable α) :
    call.perform table = (answers table call.events, behind table call.events) := by
  cases call with
  | guarded calls =>
    have opened : answers table (.opened :: (eventsOf calls ++ [.closed])) =
        answers table.push (eventsOf calls) := by
      simp [answers, answers_append, Event.apply]
    rw [Call.perform, Call.events, inScope, performAll_eq calls, opened, behind_cons, behind_append]
    rfl
  | add | push | pop | ask => rfl

theorem performAll_eq (calls : List (Call α)) (table : SymbolTable α) :
    performAll calls table = (answers table (eventsOf calls), behind table (eventsOf calls)) := by
  cases calls with
  | nil => rfl
  | cons call calls =>
    simp only [performAll, eventsOf, perform_eq call, performAll_eq calls, answers_append,
      behind_append]

end

theorem guards_of_balanced (table : SymbolTable α) (calls : List (Call α))
    (balanced : Balanced (eventsOf calls)) : Guards table calls := by
  have run : table.inScope (performAll calls) =
      (answers table.push (eventsOf calls), (behind table.push (eventsOf calls)).pop) := by
    rw [inScope, performAll_eq]
  obtain ⟨stays, level⟩ := (balanced_iff _).mp balanced
  constructor
  case restored =>
    have frame := outer_behind table.push (eventsOf calls)
    rw [stays, level, Nat.zero_add, outer_one, outer_one, pop_push] at frame
    rw [run, frame]
  case all_answered =>
    rw [run, length_answers]
  case answered =>
    intro earlier name later split
    have isOpen : reached earlier = 0 := by
      rw [← staysOpen_iff]
      intro part isPrefix
      apply balanced.stays
      rw [split]
      exact isPrefix.trans (List.prefix_append _ _)
    refine ⟨(behind table.push earlier).lookupChain name, ?_, ?_⟩
    · rw [run, split, answers_append, ← length_answers table.push earlier,
        List.getElem?_append_right (Nat.le_refl _), Nat.sub_self]
      rfl
    · intro value
      rw [lookupChain_behind, isOpen, outer_zero, lookupChain_push, Option.or_eq_some_iff,
        latest_eq_some, latest_eq_none]

def shadowing : List (Call Nat) :=
  [.add "x" 1, .guarded [.add "x" 2, .ask (.chain "x"), .push, .add "y" 3, .pop, .ask (.chain "y")],
    .ask (.chain "x")]

theorem guards_shadowing : Balanced (eventsOf shadowing) ∧ Guards ⟨[], some 3⟩ shadowing := by
  have balanced : Balanced (eventsOf shadowing) := by
    rw [balanced_iff]
    decide
  exact ⟨balanced, guards_of_balanced ⟨[], some 3⟩ shadowing balanced⟩

example : (empty.inScope (performAll shadowing)).1 = [some 2, none, some 1] := by decide

end Bantam.SymbolTable
