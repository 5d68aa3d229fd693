import Bantam.Proofs.Syntax.ProgramSound

/-! Invalid tokens and diagnostics. No rule of the grammar takes an invalid token, so a text with
one is no program. A parse reports the invalid tokens that it gets to and then, unless it succeeds,
the one error at which it stops. -/
namespace Bantam

/-- There is no invalid token among these. -/
def AllValid (tokens : List Token) : Prop := ∀ token ∈ tokens, token.kind ≠ .invalid

@[simp] theorem allValid_nil : AllValid [] := fun _ member => nomatch member

@[simp] theorem allValid_cons {token : Token} {tokens : List Token} :
    AllValid (token :: tokens) ↔ token.kind ≠ .invalid ∧ AllValid tokens := List.forall_mem_cons

@[simp] theorem allValid_append {first second : List Token} :
    AllValid (first ++ second) ↔ AllValid first ∧ AllValid second := List.forall_mem_append

theorem Token.valid_of_isName {token : Token} (isName : token.isName) : token.kind ≠ .invalid := by
  rw [Token.isName, Bool.and_eq_true, beq_iff_eq] at isName
  rw [isName.1]
  decide

theorem Token.valid_of_isWord {token : Token} {word : String} (isWord : token.isWord word) :
    token.kind ≠ .invalid := by
  rw [Token.isWord, Bool.and_eq_true, beq_iff_eq] at isWord
  rw [isWord.1]
  decide

namespace Grammar

theorem TypeName.allValid {tokens : List Token} {type : Ty} (named : TypeName tokens type) :
    AllValid tokens := by
  cases named with
  | named isName => simp [Token.valid_of_isName isName]
  | array isName opens closes => simp [Token.valid_of_isName isName, opens, closes]

theorem Rank.Joins.valid {rank tighter : Rank} {kind : Kind} {op : BinaryOp}
    (joins : rank.Joins kind op tighter) : kind ≠ .invalid := by
  cases joins <;> decide

theorem SignBefore.valid {kind : Kind} {op : UnaryOp} (stands : SignBefore kind op) :
    kind ≠ .invalid := by
  cases stands <;> decide

theorem SignBehind.valid {kind : Kind} {op : UnaryOp} (stands : SignBehind kind op) :
    kind ≠ .invalid := by
  cases stands <;> decide

mutual

theorem Expression.allValid {rank : Rank} {tokens : List Token} {expr : Expr} :
    Expression rank tokens expr → AllValid tokens
  | .covered _ inner => inner.allValid
  | .assign left assigns right => by simp [left.allValid, assigns, right.allValid]
  | .binary joins left right => by simp [left.allValid, joins.valid, right.allValid]
  | .instanceOf tested tests named => by
    simp [tested.allValid, Token.valid_of_isWord tests, named.allValid]
  | .unary stands inner => by simp [stands.valid, inner.allValid]
  | .new creates isName opens closes => by
    simp [Token.valid_of_isWord creates, Token.valid_of_isName isName, opens, closes]
  | .newArray creates isName opens inner closes => by
    simp [Token.valid_of_isWord creates, Token.valid_of_isName isName, opens, inner.allValid,
      closes]
  | .cast casts opens named separates inner closes => by
    simp [Token.valid_of_isWord casts, opens, named.allValid, separates, inner.allValid, closes]
  | .step inner stands => by simp [inner.allValid, stands.valid]
  | .group opens inner closes => by simp [opens, inner.allValid, closes]
  | .int isInteger => by simp [isInteger]
  | .bool isBoolean => by simp [isBoolean]
  | .string isString => by simp [isString]
  | .call qualified isName opens given closes => by
    simp [qualified.allValid, Token.valid_of_isName isName, opens, given.allValid, closes]
  | .var qualified isName => by simp [qualified.allValid, Token.valid_of_isName isName]
  | .indexed qualified isName opens inner closes => by
    simp [qualified.allValid, Token.valid_of_isName isName, opens, inner.allValid, closes]

theorem Qualifier.allValid {tokens : List Token} {expr : Option Expr} :
    Qualifier tokens expr → AllValid tokens
  | .none => allValid_nil
  | .dotted inner selects => by simp [inner.allValid, selects]

theorem Arguments.allValid {tokens : List Token} {exprs : List Expr} :
    Arguments tokens exprs → AllValid tokens
  | .none => allValid_nil
  | .one only => only.allValid
  | .more first separates others => by simp [first.allValid, separates, others.allValid]

end

theorem Clause.allValid {tokens : List Token} {expr : Option Expr} (clause : Clause tokens expr) :
    AllValid tokens := by
  cases clause with
  | missing => exact allValid_nil
  | present inner => exact inner.allValid

section
variable {choice : Choice}

mutual

theorem Statement.allValid {tokens : List Token} {stmt : Stmt} :
    Statement choice tokens stmt → AllValid tokens
  | .block opens inner closes => by simp [opens, inner.allValid, closes]
  | .decl typed isName assigns inner closes => by
    simp [typed.allValid, Token.valid_of_isName isName, assigns, inner.allValid, closes]
  | .branch tests opens test closes inner => by
    simp [Token.valid_of_isWord tests, opens, test.allValid, closes, inner.allValid]
  | .branchElse tests opens test closes inner _ otherwise last => by
    simp [Token.valid_of_isWord tests, opens, test.allValid, closes, inner.allValid,
      Token.valid_of_isWord otherwise, last.allValid]
  | .whileLoop loops opens test closes inner => by
    simp [Token.valid_of_isWord loops, opens, test.allValid, closes, inner.allValid]
  | .forLoop loops opens before stops test stopsAgain after closes inner => by
    simp [Token.valid_of_isWord loops, opens, before.allValid, stops, test.allValid, stopsAgain,
      after.allValid, closes, inner.allValid]
  | .giveBack returns given closes => by
    simp [Token.valid_of_isWord returns, given.allValid, closes]
  | .leave breaks closes => by simp [Token.valid_of_isWord breaks, closes]
  | .effect _ inner closes => by simp [inner.allValid, closes]

theorem Statements.allValid {tokens : List Token} {stmts : List Stmt} :
    Statements choice tokens stmts → AllValid tokens
  | .nil => allValid_nil
  | .cons first others => by simp [first.allValid, others.allValid]

end

theorem Formals.allValid {tokens : List Token} {formals : List Formal}
    (taken : Formals tokens formals) : AllValid tokens := by
  induction taken with
  | none => exact allValid_nil
  | one typed isName => simp [typed.allValid, Token.valid_of_isName isName]
  | more typed isName separates _ ih =>
    simp [typed.allValid, Token.valid_of_isName isName, separates, ih]

theorem Member.allValid {tokens : List Token} {member : Bantam.Member}
    (derived : Member choice tokens member) : AllValid tokens := by
  cases derived with
  | field typed isName closes => simp [typed.allValid, Token.valid_of_isName isName, closes]
  | initialized typed isName assigns inner closes =>
    simp [typed.allValid, Token.valid_of_isName isName, assigns, inner.allValid, closes]
  | method typed isName opens taken closes begins inner ends =>
    simp [typed.allValid, Token.valid_of_isName isName, opens, taken.allValid, closes, begins,
      inner.allValid, ends]

theorem Members.allValid {tokens : List Token} {members : List Bantam.Member}
    (derived : Members choice tokens members) : AllValid tokens := by
  induction derived with
  | nil => exact allValid_nil
  | cons first _ ih => simp [first.allValid, ih]

theorem Parent.allValid {tokens : List Token} {parent : Option String}
    (inherits : Parent tokens parent) : AllValid tokens := by
  cases inherits with
  | none => exact allValid_nil
  | named inherits isName =>
    simp [Token.valid_of_isWord inherits, Token.valid_of_isName isName]

theorem Class.allValid {file : String} {tokens : List Token} {decl : ClassDecl}
    (derived : Class choice file tokens decl) : AllValid tokens := by
  cases derived with
  | mk declares isName inherits opens inner closes =>
    simp [Token.valid_of_isWord declares, Token.valid_of_isName isName, inherits.allValid, opens,
      inner.allValid, closes]

theorem Classes.allValid {file : String} {tokens : List Token} {classes : List ClassDecl}
    (derived : Classes choice file tokens classes) : AllValid tokens := by
  induction derived with
  | nil => exact allValid_nil
  | cons first _ ih => simp [first.allValid, ih]

end

end Grammar

section Diagnostics
variable {file : String} {tokens : List Token}

theorem lexicalDiagnostics_append (first second : List Token) :
    lexicalDiagnostics file (first ++ second) =
      lexicalDiagnostics file first ++ lexicalDiagnostics file second := List.filterMap_append

theorem lexicalDiagnostics_eq_nil : lexicalDiagnostics file tokens = [] ↔ AllValid tokens := by
  simp [lexicalDiagnostics, AllValid, Token.diagnostic?]

theorem lexicalDiagnostics_filter {keep : Token → Bool}
    (keeps : ∀ token : Token, token.kind = .invalid → keep token = true) :
    lexicalDiagnostics file (tokens.filter keep) = lexicalDiagnostics file tokens := by
  rw [lexicalDiagnostics, List.filterMap_filter]
  apply List.filterMap_congr
  intro token _
  by_cases invalid : token.kind = .invalid
  · rw [if_pos (keeps token invalid)]
  · simp [Token.diagnostic?, invalid]

theorem lexicalDiagnostics_meaningful (file source : String) :
    lexicalDiagnostics file (Grammar.meaningful source) =
      lexicalDiagnostics file (scan source) := by
  apply lexicalDiagnostics_filter
  intro token invalid
  simp [invalid]

/-- A parser that has gone on has reported the invalid ones among the first tokens, that at which it
stands included. -/
theorem reported_goTo (earlier : List Diagnostic) (file source : String) (rest : List Token) :
    ((Parser.ofText file source earlier).goTo rest).reported = earlier ++
      lexicalDiagnostics file ((Grammar.meaningful source).take
        (1 + ((Grammar.meaningful source).length - rest.length))) := by
  rw [List.take_add, lexicalDiagnostics_append, ← List.append_assoc]
  rfl

end Diagnostics

namespace Parser
variable {parser : Parser}

theorem finish_parse : parser.parse.2.finish = parser.finish := by
  rw [parse]
  split <;> rfl

/-- A parser that misses something has stopped at the token that it finds instead. -/
theorem stopped_of_unexpected {expectation : Expectation} {found : Token}
    (failed : parser.parse.1 = .error (.unexpected expectation found)) :
    readClasses parser.file parser.unread = .error ⟨.expected expectation, parser.parse.2.unread⟩ ∧
      parser.parse.2.unread.head?.getD parser.finish = found := by
  rw [parse] at failed ⊢
  cases outcome : readClasses parser.file parser.unread with
  | ok classes =>
    rw [outcome] at failed
    contradiction
  | error failure =>
    rw [outcome] at failed
    obtain ⟨obstacle, rest⟩ := failure
    cases obstacle with
    | invalidTarget span => cases failed
    | expected missing =>
      cases failed
      exact ⟨rfl, rfl⟩

end Parser

/-- What a parse comes to, by what the grammar makes of the tokens. -/
theorem parseAfter_eq (earlier : List Diagnostic) (file source : String) :
    parseAfter earlier file source =
      match readClasses file (Grammar.meaningful source) with
      | .ok classes => (.ok ⟨classes⟩, ((Parser.ofText file source earlier).goTo []).reported)
      | .error failure =>
        let error := SyntaxError.ofFailure (Cursor.ofText source).endOfInput failure
        (.error error, ((Parser.ofText file source earlier).goTo failure.rest).reported ++
          [error.toDiagnostic file]) := by
  have tokens : (Parser.ofText file source earlier).unread = Grammar.meaningful source := rfl
  have name : (Parser.ofText file source earlier).file = file := rfl
  rw [parseAfter, Parser.parse, tokens, name]
  cases readClasses file (Grammar.meaningful source) <;> rfl

theorem exists_added (earlier : List Diagnostic) (file source : String) :
    ∃ added, (parseAfter earlier file source).2 = earlier ++ added ∧
      ((∃ program, (parseAfter earlier file source).1 = .ok program) ↔ added = []) ∧
      (∀ error, (parseAfter earlier file source).1 = .error error →
        ∃ lexical, lexical <+: lexicalDiagnostics file (scan source) ∧
          added = lexical ++ [⟨.syntactic, file, error.span, error.detail⟩]) ∧
      ((∃ program, (parseAfter earlier file source).1 = .ok program) →
        lexicalDiagnostics file (scan source) = []) := by
  rw [parseAfter_eq]
  cases read : readClasses file (Grammar.meaningful source) with
  | ok classes =>
    have valid := (readClasses_sound read).allValid
    have reached : lexicalDiagnostics file ((Grammar.meaningful source).take
        (1 + (Grammar.meaningful source).length)) = [] :=
      lexicalDiagnostics_eq_nil.mpr fun token member => valid token (List.mem_of_mem_take member)
    refine ⟨[], ?_, by simp, by simp, fun _ => ?_⟩
    · dsimp only
      rw [reported_goTo, List.length_nil, Nat.sub_zero, reached]
    · rw [← lexicalDiagnostics_meaningful]
      exact lexicalDiagnostics_eq_nil.mpr valid
  | error failure =>
    dsimp only
    rw [reported_goTo, List.append_assoc]
    refine ⟨_, rfl, by simp, ?_, by simp⟩
    intro error failed
    obtain rfl := Except.error.inj failed
    refine ⟨_, ?_, rfl⟩
    rw [← lexicalDiagnostics_meaningful]
    exact (List.take_prefix _ _).filterMap _

end Bantam
