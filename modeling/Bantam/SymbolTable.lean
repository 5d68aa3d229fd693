/-! Symbol tables: stacks of scopes, each of which binds names to values. A table may have a parent,
given by its number, whose bindings are seen where the table itself has none. -/
namespace Bantam

/-- The bindings of one scope, sorted by name, with one binding for a name. -/
abbrev Scope (α : Type) : Type := List (String × α)

def Scope.insert {α : Type} (name : String) (value : α) : Scope α → Scope α
  | [] => [(name, value)]
  | (other, old) :: rest =>
    if name = other then (name, value) :: rest
    else if name < other then (name, value) :: (other, old) :: rest
    else (other, old) :: Scope.insert name value rest

theorem Scope.lookup_cons {α : Type} (name other : String) (value : α) (rest : Scope α) :
    List.lookup other ((name, value) :: rest) =
      if other = name then some value else List.lookup other rest := by
  by_cases same : other = name
  · simp [same]
  · simp [List.lookup_cons, beq_false_of_ne same, same]

theorem Scope.lookup_insert {α : Type} (name other : String) (value : α) (scope : Scope α) :
    List.lookup other (Scope.insert name value scope) =
      if other = name then some value else List.lookup other scope := by
  induction scope with
  | nil => rw [Scope.insert, Scope.lookup_cons]
  | cons binding rest ih =>
    obtain ⟨bound, old⟩ := binding
    rw [Scope.insert]
    split
    · next same =>
      subst same
      rw [Scope.lookup_cons, Scope.lookup_cons]
      split <;> rfl
    · next different =>
      split
      · rw [Scope.lookup_cons]
      · rw [Scope.lookup_cons, Scope.lookup_cons, ih]
        by_cases same : other = bound
        · subst same
          simp [Ne.symm different]
        · simp [same]

structure SymbolTable (α : Type) where
  -- The open scopes, from the innermost to the outermost.
  scopes : List (Scope α) := []
  parent : Option Nat := none
  deriving DecidableEq, Repr

namespace SymbolTable

variable {α β : Type}

def empty : SymbolTable α := {}

def size (table : SymbolTable α) : Nat := table.scopes.length

def push (table : SymbolTable α) : SymbolTable α := { table with scopes := [] :: table.scopes }

def pop (table : SymbolTable α) : SymbolTable α := { table with scopes := table.scopes.tail }

def inScope (table : SymbolTable α) (run : SymbolTable α → β × SymbolTable α) :
    β × SymbolTable α :=
  let (result, inner) := run table.push
  (result, inner.pop)

/-- Binds a name in the innermost scope, which is opened if there is none. -/
def add (table : SymbolTable α) (name : String) (value : α) : SymbolTable α :=
  { table with scopes := Scope.insert name value (table.scopes.headD []) :: table.scopes.tail }

def peek (table : SymbolTable α) (name : String) : Option α :=
  table.scopes.head?.bind fun scope => scope.lookup name

def lookupChain (table : SymbolTable α) (name : String) : Option α :=
  table.scopes.findSome? fun scope => scope.lookup name

/-- The binding of a name in the table, or else in its parent and so on, through this many tables.
Parents are found by their numbers. -/
def lookup (resolve : Nat → Option (SymbolTable α)) (name : String) :
    Nat → SymbolTable α → Option α
  | 0, _ => none
  | tables + 1, table =>
    table.lookupChain name <|> do
      lookup resolve name tables (← resolve (← table.parent))

@[simp] theorem pop_push (table : SymbolTable α) : table.push.pop = table := rfl

@[simp] theorem pop_add (table : SymbolTable α) (name : String) (value : α) :
    (table.add name value).pop = table.pop := rfl

@[simp] theorem size_push (table : SymbolTable α) : table.push.size = table.size + 1 := rfl

@[simp] theorem peek_push (table : SymbolTable α) (name : String) :
    table.push.peek name = none := rfl

@[simp] theorem lookupChain_push (table : SymbolTable α) (name : String) :
    table.push.lookupChain name = table.lookupChain name := by
  simp [push, lookupChain, List.findSome?_cons]

theorem peek_add (table : SymbolTable α) (name other : String) (value : α) :
    (table.add name value).peek other = if other = name then some value else table.peek other := by
  unfold add peek
  cases table.scopes <;> simp [Scope.lookup_insert]

theorem lookupChain_add (table : SymbolTable α) (name other : String) (value : α) :
    (table.add name value).lookupChain other =
      if other = name then some value else table.lookupChain other := by
  unfold add lookupChain
  by_cases same : other = name
  · cases table.scopes <;> simp [Scope.lookup_insert, same]
  · cases table.scopes <;> simp [List.findSome?_cons, Scope.lookup_insert, same]

def bindings (table : SymbolTable α) : List (String × α) := table.scopes.reverse.flatten

def setParent (table : SymbolTable α) (parent : Option Nat) : SymbolTable α :=
  { table with parent }

end SymbolTable

end Bantam
