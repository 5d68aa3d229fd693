import Bantam.Proofs.Syntax.Beginnings

/-! Other derivations of the same text. Two choices agree on a text if the second allows every
expression statement that the first allows, and every statement before an `else` that leaves no
condition open: an `else` that stands behind an open condition can always be moved into it. The
tokens stay as they are, the tree may change. -/
namespace Bantam.Grammar

/-- The reader's choice, given only in part: expression statements do not begin with the test of a
name's type, and an `else` may belong to any condition before it. -/
def Choice.untested : Choice where
  effect tokens := ¬ TestsName tokens
  beforeElse _ := True

def Choice.nearest : Choice where
  effect tokens := ¬ TestsName tokens
  beforeElse stmt := leavesOpen stmt = false

/-- The second choice allows what the first does, apart from the place of an `else`. -/
structure Choice.Extends (first second : Choice) : Prop where
  effect {tokens : List Token} (allowed : first.effect tokens) : second.effect tokens
  beforeElse {stmt : Stmt} (closed : leavesOpen stmt = false) : second.beforeElse stmt

/-- An open condition takes an `else` that stands behind it. -/
theorem Statement.attach {choice : Choice}
    (settles : ∀ {stmt}, leavesOpen stmt = false → choice.beforeElse stmt)
    {other : Token} {alternative : List Token} {elseBranch : Stmt} (otherwise : other.isWord "else")
    (second : Statement choice alternative elseBranch) {body : List Token} {stmt : Stmt} :
    Statement choice body stmt → leavesOpen stmt →
      ∃ whole, Statement choice (body ++ other :: alternative) whole
  | .block .., isOpen => by contradiction
  | .decl .., isOpen => by contradiction
  | @Statement.branch _ _ _ _ _ _ _ _ thenBranch tests opens test closes inner, _ => by
    simp only [List.cons_append, List.append_assoc]
    -- The innermost open condition takes the `else`.
    cases isOpen : leavesOpen thenBranch with
    | true =>
      obtain ⟨whole, derived⟩ := Statement.attach settles otherwise second inner isOpen
      exact ⟨.branch default _ whole none, .branch tests opens test closes derived⟩
    | false =>
      exact ⟨.branch default _ thenBranch (some elseBranch),
        .branchElse tests opens test closes inner (settles isOpen) otherwise second⟩
  | .branchElse tests opens test closes inner nearest word last, isOpen => by
    simp only [List.cons_append, List.append_assoc]
    obtain ⟨whole, derived⟩ := Statement.attach settles otherwise second last isOpen
    exact ⟨.branch default _ _ (some whole),
      .branchElse tests opens test closes inner nearest word derived⟩
  | .whileLoop loops opens test closes inner, isOpen => by
    simp only [List.cons_append, List.append_assoc]
    obtain ⟨whole, derived⟩ := Statement.attach settles otherwise second inner isOpen
    exact ⟨.whileLoop default _ whole, .whileLoop loops opens test closes derived⟩
  | .forLoop loops opens before stops test stopsAgain after closes inner, isOpen => by
    simp only [List.cons_append, List.append_assoc]
    obtain ⟨whole, derived⟩ := Statement.attach settles otherwise second inner isOpen
    exact ⟨.forLoop default _ _ _ whole,
      .forLoop loops opens before stops test stopsAgain after closes derived⟩
  | .giveBack .., isOpen => by contradiction
  | .leave .., isOpen => by contradiction
  | .effect .., isOpen => by contradiction

section
variable {first second : Choice}

mutual

theorem Statement.rederive {tokens : List Token} {stmt : Stmt} (wider : first.Extends second) :
    Statement first tokens stmt → ∃ other, Statement second tokens other
  | .block opens inner closes => by
    obtain ⟨body, derived⟩ := inner.rederive wider
    exact ⟨.block default body, .block opens derived closes⟩
  | .decl typed isName assigns inner closes =>
    ⟨.decl default _ _ _, .decl typed isName assigns inner closes⟩
  | .branch tests opens test closes inner => by
    obtain ⟨thenBranch, derived⟩ := inner.rederive wider
    exact ⟨.branch default _ thenBranch none, .branch tests opens test closes derived⟩
  | .branchElse tests opens test closes inner _ otherwise last => by
    obtain ⟨thenBranch, derived⟩ := inner.rederive wider
    obtain ⟨elseBranch, derivedElse⟩ := last.rederive wider
    cases isOpen : leavesOpen thenBranch with
    | true =>
      obtain ⟨whole, attached⟩ :=
        Statement.attach wider.beforeElse otherwise derivedElse derived isOpen
      exact ⟨.branch default _ whole none, .branch tests opens test closes attached⟩
    | false =>
      exact ⟨.branch default _ thenBranch (some elseBranch), .branchElse tests opens test closes
        derived (wider.beforeElse isOpen) otherwise derivedElse⟩
  | .whileLoop loops opens test closes inner => by
    obtain ⟨body, derived⟩ := inner.rederive wider
    exact ⟨.whileLoop default _ body, .whileLoop loops opens test closes derived⟩
  | .forLoop loops opens before stops test stopsAgain after closes inner => by
    obtain ⟨body, derived⟩ := inner.rederive wider
    exact ⟨.forLoop default _ _ _ body,
      .forLoop loops opens before stops test stopsAgain after closes derived⟩
  | .giveBack returns given closes => ⟨.giveBack default _, .giveBack returns given closes⟩
  | .leave breaks closes => ⟨.leave default, .leave breaks closes⟩
  | .effect allowed inner closes =>
    ⟨.expr default _, .effect (wider.effect allowed) inner closes⟩

theorem Statements.rederive {tokens : List Token} {stmts : List Stmt}
    (wider : first.Extends second) :
    Statements first tokens stmts → ∃ others, Statements second tokens others
  | .nil => ⟨[], .nil⟩
  | .cons head tail => by
    obtain ⟨stmt, derived⟩ := head.rederive wider
    obtain ⟨others, derivedOthers⟩ := tail.rederive wider
    exact ⟨stmt :: others, .cons derived derivedOthers⟩

end

theorem Member.rederive {tokens : List Token} {member : Bantam.Member}
    (wider : first.Extends second) (derived : Member first tokens member) :
    ∃ other, Member second tokens other := by
  cases derived with
  | field typed isName closes => exact ⟨.field ⟨_, _, _, default⟩, .field typed isName closes⟩
  | initialized typed isName assigns inner closes =>
    exact ⟨.field ⟨_, _, _, default⟩, .initialized typed isName assigns inner closes⟩
  | method typed isName opens taken closes begins inner ends =>
    obtain ⟨body, derived⟩ := inner.rederive wider
    exact ⟨.method ⟨_, _, _, body, default⟩,
      .method typed isName opens taken closes begins derived ends⟩

theorem Members.rederive {tokens : List Token} {members : List Bantam.Member}
    (wider : first.Extends second) (derived : Members first tokens members) :
    ∃ others, Members second tokens others := by
  induction derived with
  | nil => exact ⟨[], .nil⟩
  | cons head _ ih =>
    obtain ⟨member, derived⟩ := head.rederive wider
    obtain ⟨others, derivedOthers⟩ := ih
    exact ⟨member :: others, .cons derived derivedOthers⟩

theorem Class.rederive {file : String} {tokens : List Token} {decl : ClassDecl}
    (wider : first.Extends second) (derived : Class first file tokens decl) :
    ∃ other, Class second file tokens other := by
  obtain ⟨declares, isName, inherits, opens, inner, closes⟩ := derived
  obtain ⟨members, derived⟩ := inner.rederive wider
  exact ⟨⟨_, _, members, file, default⟩, .mk declares isName inherits opens derived closes⟩

theorem Classes.rederive {file : String} {tokens : List Token} {classes : List ClassDecl}
    (wider : first.Extends second) (derived : Classes first file tokens classes) :
    ∃ others, Classes second file tokens others := by
  induction derived with
  | nil => exact ⟨[], .nil⟩
  | cons head _ ih =>
    obtain ⟨decl, derived⟩ := head.rederive wider
    obtain ⟨others, derivedOthers⟩ := ih
    exact ⟨decl :: others, .cons derived derivedOthers⟩

end

theorem extends_nearest : Choice.untested.Extends .nearest := ⟨id, id⟩

theorem extends_untested : Choice.settled.Extends .untested where
  effect := by
    rintro tokens notLike ⟨isName, tests⟩
    exact notLike (.word isName (Token.kind_of_isWord tests))
  beforeElse _ := trivial

end Bantam.Grammar
