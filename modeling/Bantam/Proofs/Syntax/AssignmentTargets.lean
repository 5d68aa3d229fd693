import Bantam.Proofs.Syntax.ExpressionLocated
import Bantam.Proofs.Syntax.RememberedParentheses
import Bantam.Proofs.Syntax.Scanning

/-! Assignment targets. What stands before an equals sign is assigned to if its tokens are those of
a variable, and refused otherwise. Parentheses around the whole are no part of a variable, and what
parentheses there are inside of it or before it makes no difference, not even to a parser that only
remembers the span of those that it closed last. -/
namespace Bantam
open Grammar

/-- What can be assigned to: a name or an element of a named array, perhaps selected from a primary
expression. -/
inductive Grammar.Target : List Token → Prop
  | name {name : Token} (isName : name.isName) : Target [name]
  | element {name opening closing : Token} {tokens : List Token} {index : Expr}
      (isName : name.isName) (opens : opening.kind = .leftBracket)
      (inner : Expression .assignment tokens index) (closes : closing.kind = .rightBracket) :
      Target (name :: opening :: (tokens ++ [closing]))
  | member {front : List Token} {dot name : Token} {receiver : Expr}
      (primary : Expression .primary front receiver) (selects : dot.kind = .dot)
      (isName : name.isName) : Target (front ++ [dot, name])
  | memberElement {front tokens : List Token} {dot name opening closing : Token}
      {receiver index : Expr} (primary : Expression .primary front receiver)
      (selects : dot.kind = .dot) (isName : name.isName) (opens : opening.kind = .leftBracket)
      (inner : Expression .assignment tokens index) (closes : closing.kind = .rightBracket) :
      Target (front ++ dot :: name :: opening :: (tokens ++ [closing]))

section Targets
variable {tokens : List Token}

theorem Grammar.Target.isVariable (target : Target tokens) :
    ∃ expr, Expression .variable tokens expr := by
  let info : Info := ⟨default, none⟩
  cases target with
  | name isName => exact ⟨.var info none _ none, .var .none isName⟩
  | element isName opens inner closes =>
    exact ⟨.var info none _ (some _), .indexed .none isName opens inner closes⟩
  | member primary selects isName =>
    have derived : Expression .variable _ (.var info _ _ none) :=
      .var (.dotted primary selects) isName
    rw [← List.append_cons] at derived
    exact ⟨_, derived⟩
  | memberElement primary selects isName opens inner closes =>
    have derived : Expression .variable _ (.var info _ _ (some _)) :=
      .indexed (.dotted primary selects) isName opens inner closes
    rw [← List.append_cons] at derived
    exact ⟨_, derived⟩

theorem Grammar.Expression.target {expr : Expr} (isVariable : Expression .variable tokens expr) :
    Target tokens := by
  cases isVariable with
  | covered covers => cases covers
  | binary joins => cases joins
  | var qualified isName =>
    cases qualified with
    | none => exact .name isName
    | dotted primary selects =>
      rw [List.append_assoc]
      exact .member primary selects isName
  | indexed qualified isName opens inner closes =>
    cases qualified with
    | none => exact .element isName opens inner closes
    | dotted primary selects =>
      rw [List.append_assoc]
      exact .memberElement primary selects isName opens inner closes

theorem Grammar.Target.not_enclosed (target : Target tokens) : ¬ Enclosed tokens := by
  rintro ⟨opening, inside, closing, rfl, -, closes⟩
  obtain ⟨expr, isVariable⟩ := target.isVariable
  have ends : (opening :: (inside ++ [closing])).getLast? = some closing := by
    rw [← List.cons_append]
    exact List.getLast?_concat ..
  exact (last_of_variable isVariable ends).2 closes

end Targets

section Decision
variable {source : String} {tokens : List Token} {left : Reading Operand tokens}
  {sign : Reading Span left.rest}

theorem loose_of_assign (sees : readKind? .assign left.rest = some sign) : Loose 2 left.rest := by
  obtain ⟨token, taken, assigns⟩ := readKind?_taken sees
  rw [← sign.taken_append_rest, taken]
  exact .ofKind assigns (by decide) (by decide)

theorem Grammar.Target.assigns (target : Target left.taken)
    (read : readOperators .or tokens = .ok left) (loose : Loose 2 left.rest) :
    left.value.assignment?.isSome := by
  obtain ⟨expr, isVariable⟩ := target.isVariable
  obtain ⟨token, more, split, starts⟩ := isVariable.startsOperand (.inr rfl)
  have whole : tokens = token :: (more ++ left.rest) := by
    rw [← List.cons_append, ← split, left.taken_append_rest]
  have reaches : HeadUpTo true (left.taken ++ left.rest) left.rest :=
    isVariable.reaches (loose.mono (by decide))
  -- The equals sign holds on to nothing in front of it, so what is read at every level is the
  -- primary expression, and that ends where `left` does.
  rw [left.taken_append_rest] at reaches
  obtain ⟨head, rest, readHead, assigns⟩ := reaches.finish (loose.mono (by decide))
  rw [← rest] at loose
  have readUnary := readUnary_of_primary whole starts readHead (loose.mono (by decide))
  obtain rfl : head = left :=
    Except.ok.inj ((readOperators_of_unary .or readUnary loose).symm.trans read)
  exact assigns rfl

def Accepts (left : Reading Operand tokens) (sign : Reading Span left.rest) : Prop :=
  ∃ info qualifier name index, left.value.expr = .var info qualifier name index ∧
    readExpr tokens = (readExpr sign.rest).map fun right =>
      (left.followedBy (sign.followedBy right)).give
        (.assign ⟨info.span.merge right.value.span, none⟩ qualifier name index right.value)

def Refuses (left : Reading Operand tokens) : Prop :=
  readExpr tokens = .error ⟨.invalidTarget left.value.expr.span, left.rest⟩

theorem accepts_of_target (read : readOperators .or tokens = .ok left)
    (sees : readKind? .assign left.rest = some sign) (target : Target left.taken) :
    Accepts left sign := by
  obtain ⟨assign, assigns⟩ :=
    Option.isSome_iff_exists.mp (target.assigns read (loose_of_assign sees))
  obtain ⟨⟨expr, grouped⟩, rest, isSuffix, shorter⟩ := left
  unfold Operand.assignment? at assigns
  split at assigns
  · next info qualifier name index same =>
    cases same
    refine ⟨info, qualifier, name, index, rfl, ?_⟩
    rw [readExpr, read]
    dsimp only [bind, Except.bind]
    rw [sees]
    dsimp only [Operand.assignment?]
    cases readExpr sign.rest <;> rfl
  · contradiction

theorem refuses_of_not_target (read : readOperators .or tokens = .ok left)
    (sees : readKind? .assign left.rest = some sign) (noTarget : ¬ Target left.taken) :
    Refuses left := by
  have unassigned : left.value.assignment? = none := by
    by_contra assigns
    obtain ⟨assign, assigns⟩ := Option.ne_none_iff_exists'.mp assigns
    obtain ⟨single, info, qualifier, name, index, isVar, -⟩ := assignment?_eq_some assigns
    have isVariable := (readOperators_sound read).isVariable single (by rw [isVar]; rfl)
    exact noTarget isVariable.target
  rw [Refuses, readExpr, read]
  dsimp only [bind, Except.bind]
  rw [sees]
  dsimp only
  rw [unassigned]
  rfl

theorem Blames.inside {failure : Failure} (blames : Blames tokens failure) :
    failure.rest <:+ tokens := by
  cases blames with
  | expected inside => exact inside
  | target inside => exact inside

theorem Accepts.not_refuses (inside : tokens <:+ meaningful source) (accepts : Accepts left sign) :
    ¬ Refuses left := by
  intro refuses
  obtain ⟨info, qualifier, name, index, -, reads⟩ := accepts
  have behind : sign.rest <:+ meaningful source :=
    sign.isSuffix.trans (left.isSuffix.trans inside)
  have meets := readExpr_meets ((ordered_meaningful source).sublist behind.sublist)
    (List.suffix_refl sign.rest)
  -- A failure to read the value leaves less than `left` does.
  rw [Refuses, reads] at refuses
  cases read : readExpr sign.rest with
  | ok right =>
    rw [read] at refuses
    contradiction
  | error failure =>
    rw [read] at refuses meets
    have same : failure = ⟨.invalidTarget left.value.expr.span, left.rest⟩ :=
      Except.error.inj refuses
    have remains : left.rest <:+ sign.rest := by
      have inside := Blames.inside meets
      rwa [same] at inside
    have := remains.length_le
    have := sign.shorter
    omega

/-- A parser that remembers parentheses has remembered last the span of a variable, if and only if
the variable is enclosed. -/
theorem remembered_iff_enclosed {later : Option Span} (inside : tokens <:+ meaningful source)
    (read : readOperators .or tokens = .ok left) (isVar : left.value.expr.isVar = true)
    (known : Remembered.Known source later) (ofGroup : Remembered.OfGroup left.value later) :
    later = some left.value.expr.span ↔ Enclosed left.taken := by
  have ordered : Ordered left.taken :=
    (ordered_meaningful source).sublist (left.taken_sublist inside)
  constructor
  · intro same
    have grouped := (grouped_iff_span inside read isVar).mpr (known _ same)
    exact (readOperators_stands read (.inr isVar) ordered).enclosed grouped
  · intro enclosed
    apply ofGroup
    by_contra single
    have isVariable := (readOperators_sound read).isVariable (by simpa using single) isVar
    exact isVariable.target.not_enclosed enclosed

/-- How it is decided whether an expression is assigned to, behind which there is an equals sign. -/
structure DecidesTarget (source : String) (left : Reading Operand tokens)
    (sign : Reading Span left.rest) : Prop where
  accepted : Accepts left sign ↔ Target left.taken ∧ ¬ Enclosed left.taken
  refused : Refuses left ↔ ¬ (Target left.taken ∧ ¬ Enclosed left.taken)
  -- The message of a refusal, and its place.
  message (finish : Token) :
    let error := SyntaxError.ofFailure finish ⟨.invalidTarget left.value.expr.span, left.rest⟩
    error.detail = "invalid assignment target" ∧ error.span = left.value.expr.span
  -- Whatever parentheses of the text have been closed before, a parser that remembers the last of
  -- them reads the same expression, tells by their span alone whether it is an enclosed variable,
  -- and goes on in the same way.
  remembered (marker : Option Span) : Remembered.Known source marker →
    (∃ later, Remembered.Known source later ∧
      Remembered.readOperators .or tokens marker = .ok (left.give left.value.expr, later) ∧
      (left.value.expr.isVar → (later = some left.value.expr.span ↔ Enclosed left.taken))) ∧
    (Remembered.readExpr tokens marker).map Prod.fst = readExpr tokens

/-- An expression with an equals sign behind it is assigned to if and only if its tokens are those
of a variable, and are not enclosed in parentheses as a whole. -/
theorem assignment_targets (inside : tokens <:+ meaningful source)
    (read : readOperators .or tokens = .ok left)
    (sees : readKind? .assign left.rest = some sign) : DecidesTarget source left sign where
  accepted := by
    constructor
    · intro accepts
      by_contra noTarget
      apply accepts.not_refuses inside
      apply refuses_of_not_target read sees
      exact fun target => noTarget ⟨target, target.not_enclosed⟩
    · intro target
      exact accepts_of_target read sees target.1
  refused := by
    constructor
    · intro refuses target
      exact (accepts_of_target read sees target.1).not_refuses inside refuses
    · intro noTarget
      apply refuses_of_not_target read sees
      exact fun target => noTarget ⟨target, target.not_enclosed⟩
  message finish := ⟨rfl, rfl⟩
  remembered marker known := by
    constructor
    · have agrees := Remembered.readOperators_agrees .or inside known
      rw [read] at agrees
      obtain ⟨later, known, ofGroup, reads⟩ := agrees
      refine ⟨later, known, reads, fun isVar => ?_⟩
      exact remembered_iff_enclosed inside read isVar known ofGroup
    · exact (Remembered.readExpr_agrees inside known).fst_eq

end Decision

-- Of `(a).b = c` the target is a variable that begins with parentheses.
theorem assignment_targets_selected :
    ∃ (left : Reading Operand (meaningful "(a).b = c")) (sign : Reading Span left.rest),
      readOperators .or (meaningful "(a).b = c") = .ok left ∧
      readKind? .assign left.rest = some sign ∧ left.value.expr.span = ⟨0, 5, 1⟩ ∧
      DecidesTarget "(a).b = c" left sign := by
  have tokens : meaningful "(a).b = c" =
      [⟨.leftParen, "(", ⟨0, 1, 1⟩⟩, ⟨.identifier, "a", ⟨1, 2, 1⟩⟩, ⟨.rightParen, ")", ⟨2, 3, 1⟩⟩,
        ⟨.dot, ".", ⟨3, 4, 1⟩⟩, ⟨.identifier, "b", ⟨4, 5, 1⟩⟩, ⟨.assign, "=", ⟨6, 7, 1⟩⟩,
        ⟨.identifier, "c", ⟨8, 9, 1⟩⟩] := by
    rw [meaningful, scan_eq 10 (by decide)]
    rfl
  let expr : Expr := .var ⟨⟨0, 5, 1⟩, none⟩ (some (.var ⟨⟨0, 3, 1⟩, none⟩ none "a" none)) "b" none
  rw [tokens]
  refine ⟨⟨.plain expr, [⟨.assign, "=", ⟨6, 7, 1⟩⟩, ⟨.identifier, "c", ⟨8, 9, 1⟩⟩], by decide,
    by decide⟩, ⟨⟨6, 7, 1⟩, [⟨.identifier, "c", ⟨8, 9, 1⟩⟩], by decide, by decide⟩, ?_, rfl, rfl, ?_⟩
  · cbv
  · refine assignment_targets ⟨[], tokens.symm⟩ ?_ rfl
    cbv

end Bantam
