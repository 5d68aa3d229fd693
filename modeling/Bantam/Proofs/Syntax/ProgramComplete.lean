import Bantam.Proofs.Syntax.ExpressionComplete
import Bantam.Proofs.Syntax.ProgramSound
import Bantam.Proofs.Syntax.Rederivation

/-! Every derivable program is read, unless one of its statements begins with the test of a name's
type: such a statement begins with a name and a word and is taken for a declaration. Statements are
read to their end if no `else` follows where they leave a condition open. -/
namespace Bantam
open Grammar

theorem Opening.ofToken?_of {token : Token} {form : Opening} (begins : form.Begins token) :
    Opening.ofToken? token = some (form, token.span) := by
  unfold Opening.ofToken?
  cases form with
  | block =>
    have isBrace : token.kind = .leftBrace := begins
    rw [isBrace]
  | branch | whileLoop | forLoop | giveBack | leave =>
    simp only [Opening.Begins, Token.isWord, Bool.and_eq_true, beq_iff_eq] at begins
    rw [begins.1, begins.2]
    rfl

section Parts
variable {tokens rest : List Token}

def Kind.endsClause (kind : Kind) : Prop := kind = .semicolon ∨ kind = .rightParen

theorem Grammar.Clause.reads {kind : Kind} {inside : List Token} {value : Option Expr}
    {closing : Token} (given : Clause inside value) (ends : kind.endsClause)
    (closes : closing.kind = kind) :
    Leaves (readClause kind (inside ++ closing :: rest)) rest := by
  rw [readClause]
  cases given with
  | missing =>
    obtain ⟨close, found, left⟩ := readKind?_of rfl closes
    rw [List.nil_append, found]
    exact .ofReading left
  | present inner =>
    have read : Leaves (readExpr (inside ++ closing :: rest)) (closing :: rest) := by
      rcases ends with rfl | rfl <;> exact inner.reads rfl closes (by decide) (by decide)
    obtain ⟨token, more, split, starts⟩ := inner.starts
    have noClosing : readKind? kind (inside ++ closing :: rest) = none := by
      rw [split]
      rcases ends with rfl | rfl <;> exact readKind?_skips rfl (starts.kind_ne rfl rfl)
    rw [noClosing]
    refine .bind read fun expr exprRest => ?_
    exact .bind (readKind_leaves exprRest closes) fun close closeRest => .ofReading closeRest

theorem readCondition_leaves {opening closing : Token} {inside : List Token} {condition : Expr}
    (opens : opening.kind = .leftParen) (test : Expression .assignment inside condition)
    (closes : closing.kind = .rightParen) :
    Leaves (readCondition (opening :: (inside ++ closing :: rest))) rest := by
  refine .bind (readKind_leaves rfl opens) fun paren parenRest => ?_
  refine .bind (test.reads parenRest closes (by decide) (by decide)) fun expr exprRest => ?_
  exact .bind (readKind_leaves exprRest closes) fun close closeRest => .ofReading closeRest

theorem readLoopHead_leaves {opening first second closing : Token} {start inside step : List Token}
    {init condition update : Option Expr} (opens : opening.kind = .leftParen)
    (before : Clause start init) (stops : first.kind = .semicolon) (test : Clause inside condition)
    (stopsAgain : second.kind = .semicolon) (after : Clause step update)
    (closes : closing.kind = .rightParen) :
    Leaves (readLoopHead (opening :: (start ++ first :: (inside ++ second ::
      (step ++ closing :: rest))))) rest := by
  refine .bind (readKind_leaves rfl opens) fun paren parenRest => ?_
  refine .bind ((before.reads (.inl rfl) stops).along parenRest) fun init initRest => ?_
  refine .bind ((test.reads (.inl rfl) stopsAgain).along initRest) fun condition conditionRest => ?_
  exact .bind ((after.reads (.inr rfl) closes).along conditionRest) fun update updateRest =>
    .ofReading updateRest

theorem Loose.ofName {bound : Nat} {name : Token} (isName : name.isName) (some : 0 < bound) :
    Loose bound (name :: rest) := by
  refine .cons ?_
  rw [Token.grip, Token.isWord_of_isName isName (by decide), Token.kind_of_isName isName]
  exact some

theorem readDeclaration_leaves {left right : List Token} {name sign closing : Token} {type : Ty}
    {init : Expr} (typed : Grammar.TypeName left type) (isName : name.isName)
    (assigns : sign.kind = .assign) (inner : Expression .assignment right init)
    (closes : closing.kind = .semicolon) :
    Leaves (readDeclaration (left ++ name :: sign :: (right ++ closing :: rest))) rest := by
  refine .bind (readType_leaves typed rfl (.ofName isName (by decide))) fun type typeRest => ?_
  refine .bind (readName_leaves typeRest isName) fun reading nameRest => ?_
  refine .bind (readKind_leaves nameRest assigns) fun equals equalsRest => ?_
  refine .bind (inner.reads equalsRest closes (by decide) (by decide)) fun expr exprRest => ?_
  exact .bind (readKind_leaves exprRest closes) fun close closeRest => .ofReading closeRest

theorem readEffect_leaves {inside : List Token} {value : Expr} {closing : Token}
    (inner : Expression .assignment inside value) (closes : closing.kind = .semicolon) :
    Leaves (readEffect (inside ++ closing :: rest)) rest := by
  refine .bind (inner.reads rfl closes (by decide) (by decide)) fun expr exprRest => ?_
  exact .bind (readKind_leaves exprRest closes) fun close closeRest => .ofReading closeRest

theorem Grammar.TypeName.startsDeclaration {left : List Token} {name : Token} {type : Ty}
    (typed : Grammar.TypeName left type) (isName : name.isName) :
    startsDeclaration (left ++ name :: rest) := by
  cases typed with
  | named isType => simp [Bantam.startsDeclaration, isType, Token.kind_of_isName isName]
  | array isType opens closes => simp [Bantam.startsDeclaration, isType, opens, closes]

theorem Grammar.TypeName.starts {left : List Token} {type : Ty} (typed : Grammar.TypeName left type) :
    ∃ token more, left = token :: more ∧ token.isName := by
  cases typed with
  | named isType => exact ⟨_, _, rfl, isType⟩
  | array isType _ _ => exact ⟨_, _, rfl, isType⟩

theorem testsName_of_append {inside : List Token} {closing : Token}
    (tests : TestsName (inside ++ closing :: rest)) (notWord : closing.kind ≠ .identifier) :
    TestsName inside ∨ inside = [] := by
  match inside, tests with
  | [], _ => exact .inr rfl
  | [_], .mk _ isTest => exact absurd (Token.kind_of_isWord isTest) notWord
  | _ :: _ :: _, .mk isName isTest => exact .inl (.mk isName isTest)

end Parts

def NoElse (rest : List Token) : Prop := ∀ token ∈ rest.head?, token.isWord "else" = false

theorem NoElse.cons {token : Token} {rest : List Token} (other : token.isWord "else" = false) :
    NoElse (token :: rest) := by
  intro head isHead
  cases isHead
  exact other

theorem Token.isWord_ne {token : Token} {word other : String} (isWord : token.isWord word)
    (differ : word ≠ other) : token.isWord other = false := by
  simp only [Token.isWord, Bool.and_eq_true, beq_iff_eq] at isWord
  simp [Token.isWord, isWord, differ]

theorem Token.isWord_of_kind {token : Token} {word : String} (notWord : token.kind ≠ .identifier) :
    token.isWord word = false :=
  Bool.eq_false_iff.mpr fun isWord => notWord (Token.kind_of_isWord isWord)

/-- A statement begins neither like the end of a block nor like an alternative. -/
theorem Grammar.Statement.begins {choice : Choice} {front : List Token} {stmt : Stmt}
    (derived : Statement choice front stmt) : ∃ token more, front = token :: more ∧
      token.kind ≠ .rightBrace ∧ token.isWord "else" = false := by
  have ofWord {token : Token} {word : String} (isWord : token.isWord word) (differ : word ≠ "else") :
      token.kind ≠ .rightBrace ∧ token.isWord "else" = false :=
    ⟨by simp [Token.kind_of_isWord isWord], Token.isWord_ne isWord differ⟩
  cases derived with
  | block opens _ _ =>
    exact ⟨_, _, rfl, by simp [opens], Token.isWord_of_kind (by simp [opens])⟩
  | decl typed _ _ _ _ =>
    obtain ⟨token, more, rfl, isName⟩ := typed.starts
    exact ⟨token, _, rfl, by simp [Token.kind_of_isName isName],
      Token.isWord_of_isName isName (by decide)⟩
  | branch tests _ _ _ _ => exact ⟨_, _, rfl, ofWord tests (by decide)⟩
  | branchElse tests _ _ _ _ _ _ _ => exact ⟨_, _, rfl, ofWord tests (by decide)⟩
  | whileLoop loops _ _ _ _ => exact ⟨_, _, rfl, ofWord loops (by decide)⟩
  | forLoop loops _ _ _ _ _ _ _ _ => exact ⟨_, _, rfl, ofWord loops (by decide)⟩
  | giveBack returns _ _ => exact ⟨_, _, rfl, ofWord returns (by decide)⟩
  | leave breaks _ => exact ⟨_, _, rfl, ofWord breaks (by decide)⟩
  | effect _ inner _ =>
    obtain ⟨token, more, rfl, starts⟩ := inner.starts
    exact ⟨token, _, rfl, starts.kind_ne rfl rfl,
      starts.isWord (by decide) (by decide) (by decide)⟩

theorem Grammar.Statements.noElse {choice : Choice} {front rest : List Token} {stmts : List Stmt}
    {closing : Token} (derived : Statements choice front stmts) (closes : closing.kind = .rightBrace) :
    NoElse (front ++ closing :: rest) := by
  cases derived with
  | nil => exact .cons (Token.isWord_of_kind (by simp [closes]))
  | cons first others =>
    obtain ⟨token, more, rfl, -, other⟩ := first.begins
    exact .cons other

theorem opening_of (form : Opening) {tokens more : List Token} {token : Token}
    (split : tokens = token :: more) (begins : form.Begins token) :
    ∃ opening, readToken? Opening.ofToken? tokens = some opening ∧ opening.value.1 = form ∧
      opening.rest = more := by
  obtain ⟨opening, found, value, left⟩ := readToken?_of split (Opening.ofToken?_of begins)
  exact ⟨opening, found, by rw [value], left⟩

theorem noOpening_of {tokens more : List Token} {token : Token} (split : tokens = token :: more)
    (starts : token.StartsExpression) : readToken? Opening.ofToken? tokens = none :=
  readToken?_skips split starts.opening

mutual

theorem Grammar.Statement.reads {front : List Token} {stmt : Stmt} :
    Statement .nearest front stmt → ∀ {tokens rest}, tokens = front ++ rest →
      (leavesOpen stmt → NoElse rest) → Leaves (readStatement tokens) rest
  | .block opens inner closes, tokens, rest, split, _ => by
    simp only [List.cons_append, List.append_assoc, List.nil_append] at split
    obtain ⟨opening, found, form, left⟩ := opening_of .block split opens
    rw [readStatement, found]
    dsimp only
    rw [form]
    exact .bind (inner.reads left closes) fun body bodyRest => .ofReading bodyRest
  | .decl typed isName assigns inner closes, _, rest, split, _ => by
    obtain ⟨token, more, splitType, isType⟩ := typed.starts
    simp only [List.cons_append, List.append_assoc, List.nil_append] at split
    rw [readStatement, noOpening_of (by rw [split, splitType]; rfl) (.inl (.inr (.inr isType)))]
    dsimp only
    rw [if_pos (by rw [split]; exact typed.startsDeclaration isName), split]
    exact readDeclaration_leaves typed isName assigns inner closes
  | .branch tests opens test closes inner, _, rest, split, noElse => by
    simp only [List.cons_append, List.append_assoc] at split
    obtain ⟨opening, found, form, left⟩ := opening_of .branch split tests
    rw [readStatement, found]
    dsimp only
    rw [form]
    refine .bind ((readCondition_leaves opens test closes).along left) fun condition conditionRest => ?_
    refine .bind (inner.reads conditionRest fun _ => noElse rfl) fun thenBranch thenRest => ?_
    rw [readWord?_eq_none (thenRest ▸ noElse rfl)]
    exact .ofReading thenRest
  | .branchElse tests opens test closes inner nearest otherwise last, _, rest, split, noElse => by
    simp only [List.cons_append, List.append_assoc] at split
    obtain ⟨opening, found, form, left⟩ := opening_of .branch split tests
    rw [readStatement, found]
    dsimp only
    rw [form]
    refine .bind ((readCondition_leaves opens test closes).along left) fun condition conditionRest => ?_
    refine .bind (inner.reads conditionRest fun isOpen => ?_) fun thenBranch thenRest => ?_
    · rw [nearest] at isOpen
      contradiction
    obtain ⟨word, foundWord, wordRest⟩ := readWord?_of thenRest otherwise
    rw [foundWord]
    exact .bind (last.reads wordRest noElse) fun elseBranch elseRest => .ofReading elseRest
  | .whileLoop loops opens test closes inner, _, rest, split, noElse => by
    simp only [List.cons_append, List.append_assoc] at split
    obtain ⟨opening, found, form, left⟩ := opening_of .whileLoop split loops
    rw [readStatement, found]
    dsimp only
    rw [form]
    refine .bind ((readCondition_leaves opens test closes).along left) fun condition conditionRest => ?_
    exact .bind (inner.reads conditionRest noElse) fun body bodyRest => .ofReading bodyRest
  | .forLoop loops opens before stops test stopsAgain after closes inner, _, rest, split, noElse => by
    simp only [List.cons_append, List.append_assoc] at split
    obtain ⟨opening, found, form, left⟩ := opening_of .forLoop split loops
    rw [readStatement, found]
    dsimp only
    rw [form]
    refine .bind ((readLoopHead_leaves opens before stops test stopsAgain after closes).along left)
      fun head headRest => ?_
    exact .bind (inner.reads headRest noElse) fun body bodyRest => .ofReading bodyRest
  | .giveBack returns given closes, _, rest, split, _ => by
    simp only [List.cons_append, List.append_assoc, List.nil_append] at split
    obtain ⟨opening, found, form, left⟩ := opening_of .giveBack split returns
    rw [readStatement, found]
    dsimp only
    rw [form]
    exact .bind ((given.reads (.inl rfl) closes).along left) fun value valueRest =>
      .ofReading valueRest
  | .leave breaks closes, _, rest, split, _ => by
    simp only [List.cons_append, List.nil_append] at split
    obtain ⟨opening, found, form, left⟩ := opening_of .leave split breaks
    rw [readStatement, found]
    dsimp only
    rw [form]
    exact .bind (readKind_leaves left closes) fun close closeRest => .ofReading closeRest
  | @Statement.effect _ _ closing _ _ allowed inner closes, _, rest, split, _ => by
    obtain ⟨token, more, splitExpr, starts⟩ := inner.starts
    simp only [List.append_assoc, List.singleton_append] at split
    rw [readStatement, noOpening_of (by rw [split, splitExpr]; rfl) starts]
    dsimp only
    rw [if_neg, split]
    · exact readEffect_leaves inner closes
    -- What is taken for a declaration begins with the test of a name's type.
    · intro like
      rw [split] at like
      have closed : closing.kind ≠ .identifier := by simp [closes]
      rcases testsName_of_append (inner.testsName (.ofKind (by simp [closes]) closed) like) closed with
        tests | nothing
      · exact allowed tests
      · rw [nothing] at splitExpr
        contradiction

theorem Grammar.Statements.reads {front : List Token} {stmts : List Stmt} {closing : Token} :
    Statements .nearest front stmts → ∀ {tokens rest}, tokens = front ++ closing :: rest →
      closing.kind = .rightBrace → Leaves (readStatements tokens) rest
  | .nil, _, rest, split, closes => by
    obtain ⟨close, found, left⟩ := readKind?_of split closes
    rw [readStatements, found]
    exact .ofReading left
  | .cons first others, tokens, rest, split, closes => by
    rw [List.append_assoc] at split
    obtain ⟨token, more, splitFirst, notBrace, -⟩ := first.begins
    have splitTokens := split
    rw [splitFirst, List.cons_append] at splitTokens
    have noBrace : readKind? .rightBrace tokens = none := readKind?_skips splitTokens notBrace
    have some : tokens.isEmpty = false := by rw [splitTokens]; rfl
    rw [readStatements, noBrace]
    dsimp only
    rw [some]
    refine .bind (first.reads split fun _ => others.noElse closes) fun stmt stmtRest => ?_
    exact .bind (others.reads stmtRest closes) fun stmts stmtsRest => .ofReading stmtsRest

end

section Members
variable {rest : List Token}

theorem readFormal_leaves {tokens left others : List Token} {name : Token} {type : Ty}
    (typed : Grammar.TypeName left type) (isName : name.isName)
    (split : tokens = left ++ name :: others) : Leaves (readFormal tokens) others := by
  refine .bind (readType_leaves typed split (.ofName isName (by decide))) fun type typeRest => ?_
  exact .bind (readName_leaves typeRest isName) fun name nameRest => .ofReading nameRest

theorem Grammar.Formals.reads {inside : List Token} {formals : List Formal} {closing : Token}
    (taken : Formals inside formals) (closes : closing.kind = .rightParen) (some : formals ≠ [])
    {tokens : List Token} (split : tokens = inside ++ closing :: rest) :
    Leaves (readMoreFormals tokens) rest := by
  induction taken generalizing tokens with
  | none => contradiction
  | one typed isName =>
    simp only [List.append_assoc, List.cons_append, List.nil_append] at split
    rw [readMoreFormals]
    refine .bind (readFormal_leaves typed isName split) fun first firstRest => ?_
    have noComma : readKind? .comma first.rest = Option.none :=
      readKind?_skips firstRest (by simp [closes])
    rw [noComma]
    exact .bind (readKind_leaves firstRest closes) fun close closeRest => .ofReading closeRest
  | more typed isName separates _ ih =>
    rw [List.append_assoc] at split
    rw [readMoreFormals]
    refine .bind (readFormal_leaves typed isName split) fun first firstRest => ?_
    obtain ⟨comma, found, commaRest⟩ := readKind?_of firstRest separates
    rw [found]
    exact .bind (ih (List.cons_ne_nil _ _) commaRest) fun more moreRest => .ofReading moreRest

theorem Grammar.Formals.starts {inside : List Token} {formals : List Formal}
    (taken : Formals inside formals) (some : formals ≠ []) :
    ∃ name more, inside = name :: more ∧ name.isName := by
  cases taken with
  | none => contradiction
  | one typed _ =>
    obtain ⟨name, more, rfl, isType⟩ := typed.starts
    exact ⟨name, _, rfl, isType⟩
  | more typed _ _ _ =>
    obtain ⟨name, more, rfl, isType⟩ := typed.starts
    exact ⟨name, _, rfl, isType⟩

theorem readFormals_leaves {tokens inside : List Token} {formals : List Formal} {closing : Token}
    (taken : Formals inside formals) (closes : closing.kind = .rightParen)
    (split : tokens = inside ++ closing :: rest) : Leaves (readFormals tokens) rest := by
  rw [readFormals]
  by_cases noFormals : formals = []
  · subst noFormals
    cases taken
    obtain ⟨close, found, left⟩ := readKind?_of split closes
    rw [found]
    exact .ofReading left
  · obtain ⟨name, more, splitInside, isType⟩ := taken.starts noFormals
    have splitTokens := split
    rw [splitInside, List.cons_append] at splitTokens
    have noParen : readKind? .rightParen tokens = none :=
      readKind?_skips splitTokens (by simp [Token.kind_of_isName isType])
    rw [noParen]
    exact taken.reads closes noFormals split

theorem readBlock_leaves {tokens inside : List Token} {first last : Token} {stmts : List Stmt}
    (begins : first.kind = .leftBrace) (inner : Statements .nearest inside stmts)
    (ends : last.kind = .rightBrace) (split : tokens = first :: (inside ++ last :: rest)) :
    Leaves (readBlock tokens) rest := by
  refine .bind (readKind_leaves split begins) fun brace braceRest => ?_
  exact .bind (inner.reads braceRest ends) fun body bodyRest => .ofReading bodyRest

theorem readField_plain {tokens : List Token} {start : Span} {type : Ty} {name : String}
    {closing : Token} (closes : closing.kind = .semicolon) (split : tokens = closing :: rest) :
    Leaves (readField start type name tokens) rest := by
  have noSign : readKind? .assign tokens = none := readKind?_skips split (by simp [closes])
  rw [readField, noSign]
  exact .bind (readKind_leaves split closes) fun close closeRest => .ofReading closeRest

theorem readField_initialized {tokens right : List Token} {start : Span} {type : Ty} {name : String}
    {sign closing : Token} {init : Expr} (assigns : sign.kind = .assign)
    (inner : Expression .assignment right init) (closes : closing.kind = .semicolon)
    (split : tokens = sign :: (right ++ closing :: rest)) :
    Leaves (readField start type name tokens) rest := by
  obtain ⟨equals, found, equalsRest⟩ := readKind?_of split assigns
  rw [readField, found]
  refine .bind (inner.reads equalsRest closes (by decide) (by decide)) fun expr exprRest => ?_
  exact .bind (readKind_leaves exprRest closes) fun close closeRest => .ofReading closeRest

/-- Behind its type and its name, a member is a field unless a parenthesis follows. -/
theorem readMember_field {tokens left others : List Token} {name sign : Token} {type : Ty}
    (typed : Grammar.TypeName left type) (isName : name.isName)
    (split : tokens = left ++ name :: sign :: others) (notParen : sign.kind ≠ .leftParen)
    (field : ∀ {start type name tokens}, tokens = sign :: others →
      Leaves (readField start type name tokens) rest) : Leaves (readMember tokens) rest := by
  refine .bind (readType_leaves typed split (.ofName isName (by decide))) fun type typeRest => ?_
  refine .bind (readName_leaves typeRest isName) fun name nameRest => ?_
  have noParen : readKind? .leftParen name.rest = none := readKind?_skips nameRest notParen
  dsimp only
  rw [noParen]
  exact .bind (field nameRest) fun reading fieldRest => .ofReading fieldRest

theorem Grammar.Member.reads {front : List Token} {member : Bantam.Member}
    (derived : Grammar.Member .nearest front member) {tokens : List Token}
    (split : tokens = front ++ rest) : Leaves (readMember tokens) rest := by
  cases derived with
  | field typed isName closes =>
    rw [List.append_assoc] at split
    exact readMember_field typed isName split (by simp [closes]) fun split =>
      readField_plain closes split
  | initialized typed isName assigns inner closes =>
    simp only [List.cons_append, List.append_assoc, List.nil_append] at split
    exact readMember_field typed isName split (by simp [assigns]) fun split =>
      readField_initialized assigns inner closes split
  | method typed isName opens taken closes begins inner ends =>
    simp only [List.cons_append, List.append_assoc, List.nil_append] at split
    refine .bind (readType_leaves typed split (.ofName isName (by decide))) fun type typeRest => ?_
    refine .bind (readName_leaves typeRest isName) fun name nameRest => ?_
    obtain ⟨paren, found, parenRest⟩ := readKind?_of nameRest opens
    dsimp only
    rw [found]
    refine .bind (.bind (readFormals_leaves taken closes parenRest) fun formals formalsRest =>
      .bind (readBlock_leaves begins inner ends formalsRest) fun body bodyRest =>
        .ofReading bodyRest) fun method methodRest => .ofReading methodRest

theorem Grammar.Member.begins {choice : Choice} {front : List Token} {member : Bantam.Member}
    (derived : Grammar.Member choice front member) :
    ∃ token more, front = token :: more ∧ token.kind ≠ .rightBrace := by
  have ofType {left : List Token} {type : Ty} {others : List Token}
      (typed : Grammar.TypeName left type) :
      ∃ token more, left ++ others = token :: more ∧ token.kind ≠ .rightBrace := by
    obtain ⟨token, more, rfl, isType⟩ := typed.starts
    exact ⟨token, _, rfl, by simp [Token.kind_of_isName isType]⟩
  cases derived with
  | field typed _ _ => exact ofType typed
  | initialized typed _ _ _ _ => exact ofType typed
  | method typed _ _ _ _ _ _ _ => exact ofType typed

theorem Grammar.Members.reads {front : List Token} {members : List Bantam.Member} {closing : Token}
    (derived : Members .nearest front members) (closes : closing.kind = .rightBrace)
    {tokens : List Token} (split : tokens = front ++ closing :: rest) :
    Leaves (readMembers tokens) rest := by
  induction derived generalizing tokens with
  | nil =>
    obtain ⟨close, found, left⟩ := readKind?_of split closes
    rw [readMembers, found]
    exact .ofReading left
  | cons first _ ih =>
    rw [List.append_assoc] at split
    obtain ⟨token, more, splitFirst, notBrace⟩ := first.begins
    have splitTokens := split
    rw [splitFirst, List.cons_append] at splitTokens
    have noBrace : readKind? .rightBrace tokens = none := readKind?_skips splitTokens notBrace
    have some : tokens.isEmpty = false := by rw [splitTokens]; rfl
    rw [readMembers, noBrace]
    dsimp only
    rw [some]
    refine .bind (first.reads split) fun member memberRest => ?_
    exact .bind (ih memberRest) fun members membersRest => .ofReading membersRest

theorem readClassHead_leaves {tokens front others : List Token} {name opening : Token}
    {parent : Option String} (isName : name.isName) (inherits : Parent front parent)
    (opens : opening.kind = .leftBrace) (split : tokens = name :: (front ++ opening :: others)) :
    Leaves (readClassHead tokens) (opening :: others) := by
  refine .bind (readName_leaves split isName) fun name nameRest => ?_
  cases inherits with
  | none =>
    have noWord : readWord? "extends" name.rest = Option.none :=
      readWord?_skips nameRest (Token.isWord_of_kind (by simp [opens]))
    rw [noWord]
    exact .ofReading nameRest
  | named isExtends isParent =>
    obtain ⟨word, found, wordRest⟩ := readWord?_of nameRest isExtends
    rw [found]
    exact .bind (readName_leaves wordRest isParent) fun parent parentRest => .ofReading parentRest

theorem Grammar.Class.reads {file : String} {front : List Token} {decl : ClassDecl}
    (derived : Class .nearest file front decl) {tokens : List Token}
    (split : tokens = front ++ rest) : Leaves (readClass file tokens) rest := by
  obtain ⟨declares, isName, inherits, opens, inner, closes⟩ := derived
  simp only [List.cons_append, List.append_assoc, List.nil_append] at split
  refine .bind (readWord_leaves split declares) fun word wordRest => ?_
  refine .bind (readClassHead_leaves isName inherits opens wordRest) fun head headRest => ?_
  refine .bind (readKind_leaves headRest opens) fun brace braceRest => ?_
  exact .bind (inner.reads closes braceRest) fun body bodyRest => .ofReading bodyRest

theorem Grammar.Classes.reads {file : String} {tokens : List Token} {classes : List ClassDecl}
    (derived : Classes .nearest file tokens classes) : ∃ read, readClasses file tokens = .ok read := by
  induction derived with
  | nil => exact ⟨[], by rw [readClasses]; rfl⟩
  | cons first _ ih =>
    obtain ⟨reading, read, left⟩ := first.reads rfl
    obtain ⟨others, readOthers⟩ := ih
    refine ⟨reading.value :: others, ?_⟩
    rw [readClasses, if_neg (by cases first; simp), read]
    show (readClasses file reading.rest >>= _) = _
    rw [left, readOthers]
    rfl

end Members

/-- A source text is read as a program if and only if its tokens can be derived as classes in which
no expression statement begins with the test of a name's type. -/
theorem parse_ok_iff_derivable {file source : String} :
    (∃ program, (parse file source).1 = .ok program) ↔
      ∃ classes, Classes .untested file (meaningful source) classes := by
  constructor
  · rintro ⟨program, read⟩
    exact (readClasses_sound (parse_eq_ok_iff.mp read)).rederive extends_untested
  · rintro ⟨classes, derived⟩
    obtain ⟨others, nearest⟩ := derived.rederive extends_nearest
    obtain ⟨read, readAll⟩ := nearest.reads
    exact ⟨⟨read⟩, parse_eq_ok_iff.mpr readAll⟩

/-- A type test of a variable may stand as a statement, and is not read. -/
theorem parse_rejects_test :
    (∀ token ∈ scan "class A \x7b void m() \x7b x instanceof A; \x7d \x7d", token.kind ≠ .invalid) ∧
    (∃ classes, Classes .free "A.btm"
      (meaningful "class A \x7b void m() \x7b x instanceof A; \x7d \x7d") classes) ∧
    ¬ ∃ program, (parse "A.btm" "class A \x7b void m() \x7b x instanceof A; \x7d \x7d").1 =
      .ok program := by
  have scanned : scan "class A \x7b void m() \x7b x instanceof A; \x7d \x7d" =
      [⟨.identifier, "class", ⟨0, 5, 1⟩⟩, ⟨.identifier, "A", ⟨6, 7, 1⟩⟩,
        ⟨.leftBrace, "\x7b", ⟨8, 9, 1⟩⟩, ⟨.identifier, "void", ⟨10, 14, 1⟩⟩,
        ⟨.identifier, "m", ⟨15, 16, 1⟩⟩, ⟨.leftParen, "(", ⟨16, 17, 1⟩⟩,
        ⟨.rightParen, ")", ⟨17, 18, 1⟩⟩, ⟨.leftBrace, "\x7b", ⟨19, 20, 1⟩⟩,
        ⟨.identifier, "x", ⟨21, 22, 1⟩⟩, ⟨.identifier, "instanceof", ⟨23, 33, 1⟩⟩,
        ⟨.identifier, "A", ⟨34, 35, 1⟩⟩, ⟨.semicolon, ";", ⟨35, 36, 1⟩⟩,
        ⟨.rightBrace, "\x7d", ⟨37, 38, 1⟩⟩, ⟨.rightBrace, "\x7d", ⟨39, 40, 1⟩⟩,
        ⟨.endOfInput, "", ⟨40, 40, 1⟩⟩] := by
    rw [scan_eq 41 (by decide)]
    rfl
  refine ⟨?_, ?_, ?_⟩
  · rw [scanned]
    decide
  · rw [meaningful, scanned]
    have tested : Expression .relational [⟨.identifier, "x", ⟨21, 22, 1⟩⟩]
        (.var ⟨default, none⟩ none "x" none) :=
      .covered .relational (.covered .additive (.covered .multiplicative
        (.covered .unary (.covered .stepped (.covered .primary (.var .none rfl))))))
    have test : Expression .relational [⟨.identifier, "x", ⟨21, 22, 1⟩⟩,
        ⟨.identifier, "instanceof", ⟨23, 33, 1⟩⟩, ⟨.identifier, "A", ⟨34, 35, 1⟩⟩]
        (.instanceOf ⟨default, none⟩ (.var ⟨default, none⟩ none "x" none) (.named "A")) :=
      .instanceOf tested rfl (.named rfl)
    have stmt : Statement .free [⟨.identifier, "x", ⟨21, 22, 1⟩⟩,
        ⟨.identifier, "instanceof", ⟨23, 33, 1⟩⟩, ⟨.identifier, "A", ⟨34, 35, 1⟩⟩,
        ⟨.semicolon, ";", ⟨35, 36, 1⟩⟩]
        (.expr default (.instanceOf ⟨default, none⟩ (.var ⟨default, none⟩ none "x" none) (.named "A"))) :=
      .effect trivial (.covered .assignment (.covered .or (.covered .and (.covered .equality test)))) rfl
    have method : Grammar.Member .free [⟨.identifier, "void", ⟨10, 14, 1⟩⟩,
        ⟨.identifier, "m", ⟨15, 16, 1⟩⟩, ⟨.leftParen, "(", ⟨16, 17, 1⟩⟩,
        ⟨.rightParen, ")", ⟨17, 18, 1⟩⟩, ⟨.leftBrace, "\x7b", ⟨19, 20, 1⟩⟩,
        ⟨.identifier, "x", ⟨21, 22, 1⟩⟩, ⟨.identifier, "instanceof", ⟨23, 33, 1⟩⟩,
        ⟨.identifier, "A", ⟨34, 35, 1⟩⟩, ⟨.semicolon, ";", ⟨35, 36, 1⟩⟩,
        ⟨.rightBrace, "\x7d", ⟨37, 38, 1⟩⟩] (.method ⟨.named "void", "m", [], _, default⟩) :=
      .method (.named rfl) rfl rfl .none rfl rfl (.cons stmt .nil) rfl
    exact ⟨[⟨_, _, _, _, default⟩], .cons (.mk rfl rfl .none rfl (.cons method .nil) rfl) .nil⟩
  · rintro ⟨program, read⟩
    rw [parse_eq_ok_iff, meaningful, scanned] at read
    cbv at read
    contradiction

end Bantam
