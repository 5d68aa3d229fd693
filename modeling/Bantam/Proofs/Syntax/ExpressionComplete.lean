import Bantam.Proofs.Syntax.ExpressionSound
import Bantam.Proofs.Syntax.Grip

/-! Every derivable expression is read: to its end if what follows holds on to nothing in it, and up
to the loop of its own rank if what follows may still extend it there. -/
namespace Bantam
open Grammar

/-- The operators of a level are read up to what follows. -/
def UpTo (level : Level) (tokens rest : List Token) : Prop :=
  ∃ left : Reading Operand tokens,
    left.rest = rest ∧ readOperators level tokens = readMoreOperators level left

theorem UpTo.finish {level : Level} {tokens rest : List Token} (upTo : UpTo level tokens rest)
    (loose : Loose level.grip rest) : Leaves (readOperators level tokens) rest := by
  obtain ⟨left, rfl, read⟩ := upTo
  rw [read, readMoreOperators_of_loose loose]
  exact .ofReading rfl

theorem UpTo.ofOperand {level : Level} {tokens rest : List Token}
    (operand : Leaves (readOperand level tokens) rest) : UpTo level tokens rest := by
  obtain ⟨left, read, rfl⟩ := operand
  refine ⟨left, rfl, ?_⟩
  rw [readOperators, read]
  rfl

/-- A primary expression is read up to what follows, and can be assigned to if it is a variable. -/
def HeadUpTo (isVariable : Bool) (tokens rest : List Token) : Prop :=
  ∃ head : Reading Operand tokens, head.rest = rest ∧ readPrimary tokens = readSelections head ∧
    (isVariable → head.value.assignment?.isSome)

theorem readSelections_of_loose {tokens : List Token} {head : Reading Operand tokens}
    (loose : Loose 9 head.rest) : readSelections head = .ok head := by
  rw [readSelections, loose.readKind? rfl (by decide) (by decide)]
  rfl

/-- How far an expression of a rank is read that begins some tokens, with the rest behind it. -/
def Reaches (tokens rest : List Token) : Rank → Prop
  | .assignment => Leaves (readExpr tokens) rest
  | .or => UpTo .or tokens rest
  | .and => UpTo .and tokens rest
  | .equality => UpTo .equality tokens rest
  | .relational => UpTo .relational tokens rest
  | .additive => UpTo .additive tokens rest
  | .multiplicative => UpTo .multiplicative tokens rest
  | .unary | .stepped => Leaves (readUnary tokens) rest
  | .primary => HeadUpTo false tokens rest
  | .variable => HeadUpTo true tokens rest

/-- What may follow an expression of a rank holds on to it less tightly than this. -/
def Grammar.Rank.reach : Rank → Nat
  | assignment => 1
  | or => 3
  | and => 4
  | equality => 5
  | relational => 6
  | additive => 7
  | multiplicative | unary | stepped => 8
  | primary | .variable => 10

theorem reaches_rank {level : Level} {tokens rest : List Token} :
    Reaches tokens rest level.rank ↔ UpTo level tokens rest := by
  cases level <;> rfl

theorem Level.reach_rank (level : Level) : level.rank.reach = level.grip + 1 := by
  cases level <;> rfl

theorem readOperand_of_tighter? {level tighter : Level} {tokens : List Token}
    (found : level.tighter? = some tighter) :
    readOperand level tokens = readOperators tighter tokens := by
  rw [readOperand]
  split <;> simp_all

theorem readOperand_of_tightest {level : Level} {tokens : List Token}
    (found : level.tighter? = none) : readOperand level tokens = readUnary tokens := by
  rw [readOperand]
  split <;> simp_all

theorem readOperand_leaves {level : Level} {tokens rest : List Token}
    (reaches : Reaches tokens rest level.operandRank) (loose : Loose (level.grip + 1) rest) :
    Leaves (readOperand level tokens) rest := by
  cases found : level.tighter? with
  | none =>
    rw [Level.operandRank, found] at reaches
    rw [readOperand_of_tightest found]
    exact reaches
  | some tighter =>
    rw [Level.operandRank, found] at reaches
    rw [readOperand_of_tighter? found]
    refine (reaches_rank.mp reaches).finish ?_
    cases level <;> cases found <;> exact loose

theorem readUnary_unsigned {tokens more : List Token} {token : Token}
    (split : tokens = token :: more) (starts : token.StartsOperand) :
    readUnary tokens = (do
      let operand ← readPrimary tokens
      match readToken? (signed UnaryOp.behind?) operand.rest with
      | some sign =>
        let span := operand.value.expr.span.merge sign.value.2
        return (operand.followedBy sign).give
          (.plain (.unary ⟨span, none⟩ sign.value.1 operand.value.expr))
      | none => return operand) := by
  have unsigned : readToken? (signed UnaryOp.before?) tokens = none :=
    readToken?_skips split (Option.map_eq_none_iff.mpr starts.before?)
  have noWord (word : String) (keyword : isKeyword word) : readWord? word tokens = none :=
    readWord?_skips split (starts.isWord keyword)
  rw [readUnary, unsigned]
  dsimp only
  rw [noWord "new" (by decide)]
  dsimp only
  rewrite [noWord "cast" (by decide)]
  rfl

theorem readUnary_of_primary {tokens more : List Token} {token : Token}
    {operand : Reading Operand tokens} (split : tokens = token :: more)
    (starts : token.StartsOperand) (read : readPrimary tokens = .ok operand)
    (loose : Loose 8 operand.rest) : readUnary tokens = .ok operand := by
  have noSign : readToken? (signed UnaryOp.behind?) operand.rest = none :=
    readToken?_eq_none fun head isHead => UnaryOp.signed_eq_none (loose head isHead)
  rw [readUnary_unsigned split starts, read]
  show (match readToken? (signed UnaryOp.behind?) operand.rest with
    | some sign => _ | none => _) = _
  rw [noSign]
  rfl

theorem readOperators_of_unary (level : Level) {tokens : List Token}
    {operand : Reading Operand tokens} (read : readUnary tokens = .ok operand)
    (loose : Loose 2 operand.rest) :
    readOperators level tokens = .ok operand := by
  have readOperand : readOperand level tokens = .ok operand := by
    cases found : level.tighter? with
    | none => rw [readOperand_of_tightest found, read]
    | some tighter =>
      rw [readOperand_of_tighter? found]
      exact readOperators_of_unary tighter read loose
  rw [readOperators, readOperand]
  exact readMoreOperators_of_loose (loose.mono (by cases level <;> decide))
termination_by level.height
decreasing_by exact Level.height_of_tighter? found

theorem HeadUpTo.finish {isVariable : Bool} {tokens rest : List Token}
    (upTo : HeadUpTo isVariable tokens rest) (loose : Loose 9 rest) :
    ∃ head : Reading Operand tokens, head.rest = rest ∧ readPrimary tokens = .ok head ∧
      (isVariable → head.value.assignment?.isSome) := by
  obtain ⟨head, rfl, read, assigns⟩ := upTo
  exact ⟨head, rfl, read.trans (readSelections_of_loose loose), assigns⟩

theorem readExpr_leaves {tokens rest : List Token} (upTo : UpTo .or tokens rest)
    (loose : Loose 1 rest) : Leaves (readExpr tokens) rest := by
  obtain ⟨left, read, rfl⟩ := upTo.finish (loose.mono (by decide))
  rw [readExpr, read]
  dsimp only [bind, Except.bind]
  rw [loose.readKind? rfl (by decide) (by decide)]
  exact .ofReading rfl

theorem Reaches.covered {rank tighter : Rank} {front rest : List Token} {expr : Expr}
    (covers : rank.Covers tighter) (derived : Expression tighter front expr)
    (reaches : Reaches (front ++ rest) rest tighter) (loose : Loose rank.reach rest) :
    Reaches (front ++ rest) rest rank := by
  have ofLevel (level : Level) (inner : Reaches (front ++ rest) rest level.operandRank)
      (loose : Loose level.rank.reach rest) : Reaches (front ++ rest) rest level.rank := by
    rw [level.reach_rank] at loose
    exact reaches_rank.mpr (.ofOperand (readOperand_leaves inner loose))
  cases covers with
  | assignment => exact readExpr_leaves reaches loose
  | or => exact ofLevel .or reaches loose
  | and => exact ofLevel .and reaches loose
  | equality => exact ofLevel .equality reaches loose
  | relational => exact ofLevel .relational reaches loose
  | additive => exact ofLevel .additive reaches loose
  | multiplicative => exact ofLevel .multiplicative reaches loose
  | unary => exact reaches
  | stepped =>
    obtain ⟨token, more, rfl, starts⟩ := derived.startsOperand (.inl rfl)
    obtain ⟨head, left, read, -⟩ := HeadUpTo.finish reaches (loose.mono (by decide))
    exact ⟨head, readUnary_of_primary rfl starts read (by rwa [left]), left⟩
  | primary =>
    obtain ⟨head, left, read, -⟩ := reaches
    exact ⟨head, left, read, fun isVariable => by contradiction⟩

theorem Grammar.Rank.Joins.level {rank tighter : Rank} {kind : Kind} {op : BinaryOp}
    (joins : rank.Joins kind op tighter) : ∃ level : Level,
      rank = level.rank ∧ tighter = level.operandRank ∧ level.operator? kind = some op := by
  cases joins with
  | or => exact ⟨.or, rfl, rfl, rfl⟩
  | and => exact ⟨.and, rfl, rfl, rfl⟩
  | equal | notEqual => exact ⟨.equality, rfl, rfl, rfl⟩
  | less | lessEqual | greater | greaterEqual => exact ⟨.relational, rfl, rfl, rfl⟩
  | plus | minus => exact ⟨.additive, rfl, rfl, rfl⟩
  | star | slash | percent => exact ⟨.multiplicative, rfl, rfl, rfl⟩

theorem UpTo.binary {level : Level} {op : BinaryOp} {tokens right rest : List Token} {sign : Token}
    (upTo : UpTo level tokens (sign :: (right ++ rest)))
    (stands : level.operator? sign.kind = some op)
    (operand : ∀ others, others = right ++ rest → Leaves (readOperand level others) rest) :
    UpTo level tokens rest := by
  obtain ⟨left, leftRest, read⟩ := upTo
  have chosen : signed level.operator? sign = some (op, sign.span) :=
    Option.map_eq_some_iff.mpr ⟨op, stands, rfl⟩
  obtain ⟨reading, found, -, signRest⟩ := readToken?_of leftRest chosen
  obtain ⟨second, readSecond, rfl⟩ := operand reading.rest signRest
  rw [readMoreOperators, found] at read
  dsimp only at read
  rw [readSecond] at read
  exact ⟨_, by exact rfl, read⟩

theorem readType_leaves {front tokens rest : List Token} {type : Ty}
    (named : Grammar.TypeName front type) (split : tokens = front ++ rest) (loose : Loose 10 rest) :
    Leaves (readType tokens) rest := by
  rw [readType]
  cases named with
  | named isName =>
    refine .bind (readName_leaves split isName) fun name nameRest => ?_
    rw [loose.readKind? nameRest (by decide) (by decide)]
    exact .ofReading nameRest
  | array isName opens closes =>
    refine .bind (readName_leaves split isName) fun name nameRest => ?_
    obtain ⟨bracket, found, bracketRest⟩ := readKind?_of nameRest opens
    dsimp only
    rw [found]
    exact .bind (readKind_leaves bracketRest closes) fun close closeRest => .ofReading closeRest

theorem UpTo.instanceOf {tokens right rest : List Token} {word : Token} {type : Ty}
    (upTo : UpTo .relational tokens (word :: (right ++ rest))) (tests : word.isWord "instanceof")
    (named : Grammar.TypeName right type) (loose : Loose 10 rest) :
    UpTo .relational tokens rest := by
  obtain ⟨left, leftRest, read⟩ := upTo
  have noSign : signed Level.relational.operator? word = none := by
    rw [signed, Token.kind_of_isWord tests]
    rfl
  have chosen : Level.relational.typeTest? word = some word.span :=
    (if_pos rfl).trans (spanOfWord_of tests)
  obtain ⟨reading, found, -, wordRest⟩ := readToken?_of leftRest chosen
  obtain ⟨second, readSecond, rfl⟩ := readType_leaves named wordRest loose
  rw [readMoreOperators, readToken?_skips leftRest noSign, found] at read
  dsimp only at read
  rw [readSecond] at read
  exact ⟨_, by exact rfl, read⟩

theorem Leaves.along {α : Type} {read : (tokens : List Token) → Outcome α tokens}
    {tokens others rest : List Token} (leaves : Leaves (read tokens) rest) (same : others = tokens) :
    Leaves (read others) rest :=
  same ▸ leaves

theorem readUnary_sign {more rest : List Token} {sign : Token} {op : UnaryOp}
    (stands : UnaryOp.before? sign.kind = some op) (operand : Leaves (readUnary more) rest) :
    Leaves (readUnary (sign :: more)) rest := by
  have chosen : signed UnaryOp.before? sign = some (op, sign.span) :=
    Option.map_eq_some_iff.mpr ⟨op, stands, rfl⟩
  obtain ⟨reading, found, -, left⟩ := readToken?_of rfl chosen
  rw [readUnary, found]
  exact .bind (operand.along left) fun inner innerRest => .ofReading innerRest

theorem unsigned_of_isWord {word : Token} {spelling : String} {more : List Token}
    (isWord : word.isWord spelling) : readToken? (signed UnaryOp.before?) (word :: more) = none := by
  apply readToken?_skips rfl
  rw [signed, Token.kind_of_isWord isWord]
  rfl

theorem readUnary_new {word name opening closing : Token} {rest : List Token}
    (creates : word.isWord "new") (isName : name.isName) (opens : opening.kind = .leftParen)
    (closes : closing.kind = .rightParen) :
    Leaves (readUnary (word :: name :: opening :: closing :: rest)) rest := by
  obtain ⟨reading, found, left⟩ := readWord?_of rfl creates
  rw [readUnary, unsigned_of_isWord creates]
  dsimp only
  rw [found]
  refine .bind (readName_leaves left isName) fun type typeRest => ?_
  obtain ⟨paren, foundParen, parenRest⟩ := readKind?_of typeRest opens
  rw [foundParen]
  exact .bind (readKind_leaves parenRest closes) fun close closeRest => .ofReading closeRest

theorem readUnary_newArray {word name opening closing : Token} {front rest : List Token}
    (creates : word.isWord "new") (isName : name.isName) (opens : opening.kind = .leftBracket)
    (size : Leaves (readExpr (front ++ closing :: rest)) (closing :: rest))
    (closes : closing.kind = .rightBracket) :
    Leaves (readUnary (word :: name :: opening :: (front ++ closing :: rest))) rest := by
  obtain ⟨reading, found, left⟩ := readWord?_of rfl creates
  rw [readUnary, unsigned_of_isWord creates]
  dsimp only
  rw [found]
  refine .bind (readName_leaves left isName) fun type typeRest => ?_
  have noParen : readKind? .leftParen type.rest = none := readKind?_skips typeRest (by simp [opens])
  obtain ⟨bracket, foundBracket, bracketRest⟩ := readKind?_of typeRest opens
  rw [noParen]
  dsimp only
  rw [foundBracket]
  refine .bind (size.along bracketRest) fun inner innerRest => ?_
  exact .bind (readKind_leaves innerRest closes) fun close closeRest => .ofReading closeRest

theorem readUnary_cast {word opening comma closing : Token} {left right rest : List Token}
    {type : Ty} (casts : word.isWord "cast") (opens : opening.kind = .leftParen)
    (named : Grammar.TypeName left type) (separates : comma.kind = .comma)
    (operand : Leaves (readExpr (right ++ closing :: rest)) (closing :: rest))
    (closes : closing.kind = .rightParen) :
    Leaves (readUnary (word :: opening :: (left ++ comma :: (right ++ closing :: rest)))) rest := by
  have notNew : readWord? "new" (word :: opening :: (left ++ comma :: (right ++ closing :: rest))) =
      none := by
    apply readWord?_skips rfl
    simp only [Token.isWord, Bool.and_eq_true, beq_iff_eq] at casts
    simp [Token.isWord, casts]
  obtain ⟨reading, found, wordRest⟩ := readWord?_of rfl casts
  rw [readUnary, unsigned_of_isWord casts]
  dsimp only
  rw [notNew]
  dsimp only
  rw [found]
  refine .bind (readKind_leaves wordRest opens) fun paren parenRest => ?_
  have loose : Loose 10 (comma :: (right ++ closing :: rest)) :=
    .ofKind separates (by decide) (by decide)
  refine .bind (readType_leaves named parenRest loose) fun target targetRest => ?_
  refine .bind (readKind_leaves targetRest separates) fun sign signRest => ?_
  refine .bind (operand.along signRest) fun inner innerRest => ?_
  exact .bind (readKind_leaves innerRest closes) fun close closeRest => .ofReading closeRest

theorem Grammar.SignBehind.behind? {kind : Kind} {op : UnaryOp} (stands : SignBehind kind op) :
    UnaryOp.behind? kind = some op := by
  cases stands <;> rfl

theorem Grammar.SignBehind.grip {kind : Kind} {op : UnaryOp} (stands : SignBehind kind op) :
    kind.grip < 9 := by
  cases stands <;> decide

theorem readUnary_step {tokens rest more : List Token} {token sign : Token} {op : UnaryOp}
    (split : tokens = token :: more) (starts : token.StartsOperand)
    (upTo : HeadUpTo false tokens (sign :: rest)) (stands : SignBehind sign.kind op) :
    Leaves (readUnary tokens) rest := by
  have loose : Loose 9 (sign :: rest) :=
    .ofKind rfl stands.ne.2 stands.grip
  obtain ⟨operand, left, read, -⟩ := upTo.finish loose
  have chosen : signed UnaryOp.behind? sign = some (op, sign.span) :=
    Option.map_eq_some_iff.mpr ⟨op, stands.behind?, rfl⟩
  obtain ⟨reading, found, -, readingRest⟩ := readToken?_of left chosen
  rw [readUnary_unsigned split starts, read]
  show Leaves (match readToken? (signed UnaryOp.behind?) operand.rest with
    | some sign => _ | none => _) rest
  rw [found]
  exact .ofReading readingRest

theorem readPrimary_group {opening closing : Token} {front rest : List Token}
    (opens : opening.kind = .leftParen)
    (inner : Leaves (readExpr (front ++ closing :: rest)) (closing :: rest))
    (closes : closing.kind = .rightParen) :
    HeadUpTo false (opening :: (front ++ closing :: rest)) rest := by
  obtain ⟨paren, found, parenRest⟩ := readKind?_of rfl opens
  obtain ⟨expr, readExpr, exprRest⟩ := inner.along parenRest
  obtain ⟨close, readClose, closeRest⟩ := readKind_leaves exprRest closes
  refine ⟨(paren.followedBy (expr.followedBy close)).give
    ⟨expr.value.withSpan (paren.value.merge close.value), true⟩, closeRest, ?_,
    fun isVariable => by contradiction⟩
  rw [readPrimary, found]
  dsimp only
  rw [readExpr]
  show readKind .rightParen expr.rest >>= _ = _
  rw [readClose]
  rfl

theorem readPrimary_constant {token : Token} {rest : List Token}
    (notParen : token.kind ≠ .leftParen) (isConstant : (Expr.constant? token).isSome) :
    HeadUpTo false (token :: rest) rest := by
  obtain ⟨expr, isConstant⟩ := Option.isSome_iff_exists.mp isConstant
  have noParen : readKind? .leftParen (token :: rest) = none := readKind?_skips rfl notParen
  obtain ⟨reading, found, -, left⟩ := readToken?_of rfl isConstant
  refine ⟨reading.give (.plain reading.value), left, ?_, fun isVariable => by contradiction⟩
  rw [readPrimary, noParen]
  dsimp only
  rw [found]

section Named
variable {others rest : List Token}

theorem readNamed_call {name : Reading Name others} {qualifier : Option Expr} {opening : Token}
    {inside : List Token} (left : name.rest = opening :: inside) (opens : opening.kind = .leftParen)
    (given : Leaves (readArguments inside) rest) :
    ∃ expr, readNamed qualifier name = .ok expr ∧ expr.rest = rest := by
  obtain ⟨paren, found, parenRest⟩ := readKind?_of left opens
  obtain ⟨arguments, readGiven, argumentsRest⟩ := given.along parenRest
  rw [readNamed]
  dsimp only
  rw [found]
  dsimp only
  rw [readGiven]
  exact ⟨_, rfl, argumentsRest⟩

theorem readNamed_var {name : Reading Name others} {qualifier : Option Expr} (left : name.rest = rest)
    (loose : Loose 10 rest) :
    ∃ expr, readNamed qualifier name = .ok expr ∧ expr.rest = rest ∧ expr.value.isVar := by
  rw [readNamed]
  dsimp only
  rw [loose.readKind? left (by decide) (by decide)]
  dsimp only
  rw [loose.readKind? left (by decide) (by decide)]
  exact ⟨_, rfl, left, rfl⟩

theorem readNamed_indexed {name : Reading Name others} {qualifier : Option Expr}
    {opening closing : Token} {front : List Token}
    (left : name.rest = opening :: (front ++ closing :: rest)) (opens : opening.kind = .leftBracket)
    (inner : Leaves (readExpr (front ++ closing :: rest)) (closing :: rest))
    (closes : closing.kind = .rightBracket) :
    ∃ expr, readNamed qualifier name = .ok expr ∧ expr.rest = rest ∧ expr.value.isVar := by
  have noParen : readKind? .leftParen name.rest = none := readKind?_skips left (by simp [opens])
  obtain ⟨bracket, found, bracketRest⟩ := readKind?_of left opens
  obtain ⟨index, readIndex, indexRest⟩ := inner.along bracketRest
  obtain ⟨close, readClose, closeRest⟩ := readKind_leaves indexRest closes
  rw [readNamed]
  dsimp only
  rw [noParen]
  dsimp only
  rw [found]
  dsimp only
  rw [readIndex]
  show ∃ expr, (readKind .rightBracket index.rest >>= _) = .ok expr ∧ _
  rw [readClose]
  exact ⟨_, rfl, closeRest, rfl⟩

end Named

theorem readExpr_assign {tokens more source rest : List Token} {token sign : Token}
    (split : tokens = token :: more) (starts : token.StartsOperand)
    (upTo : HeadUpTo true tokens (sign :: (source ++ rest))) (assigns : sign.kind = .assign)
    (right : Leaves (readExpr (source ++ rest)) rest) : Leaves (readExpr tokens) rest := by
  have loose : Loose 2 (sign :: (source ++ rest)) := .ofKind assigns (by decide) (by decide)
  obtain ⟨head, headRest, read, isVariable⟩ := upTo.finish (loose.mono (by decide))
  rw [← headRest] at loose
  have readOperand := readUnary_of_primary split starts read (loose.mono (by decide))
  obtain ⟨reading, found, signRest⟩ := readKind?_of headRest assigns
  obtain ⟨assign, target⟩ := Option.isSome_iff_exists.mp (isVariable rfl)
  rw [readExpr, readOperators_of_unary .or readOperand loose]
  dsimp only [bind, Except.bind]
  rw [found]
  dsimp only
  rw [target]
  exact .bind (right.along signRest) fun value valueRest => .ofReading valueRest

/-- A primary expression is read by reading a name, with what qualifies it, and what follows the
name. -/
def ReadsNamed (tokens rest : List Token) : Prop :=
  ∃ (others : List Token) (name : Reading Name others) (qualifier : Option Expr)
    (whole : Reading Expr others → Reading Operand tokens),
    name.rest = rest ∧
      (∀ expr, (whole expr).rest = expr.rest ∧ (whole expr).value = .plain expr.value) ∧
      readPrimary tokens = readNamed qualifier name >>= fun expr => readSelections (whole expr)

theorem ReadsNamed.upTo {isVariable : Bool} {tokens middle rest : List Token}
    (named : ReadsNamed tokens middle)
    (reads : ∀ {others} (name : Reading Name others) (qualifier : Option Expr), name.rest = middle →
      ∃ expr, readNamed qualifier name = .ok expr ∧ expr.rest = rest ∧
        (isVariable → expr.value.isVar)) :
    HeadUpTo isVariable tokens rest := by
  obtain ⟨others, name, qualifier, whole, nameRest, wholeOf, read⟩ := named
  obtain ⟨expr, readExpr, left, isVar⟩ := reads name qualifier nameRest
  refine ⟨whole expr, (wholeOf expr).1.trans left, ?_, fun variable_ok => ?_⟩
  · rw [read, readExpr]
    rfl
  · rw [(wholeOf expr).2]
    have isVar := isVar variable_ok
    unfold Expr.isVar at isVar
    split at isVar
    · next found => rw [found]; rfl
    · contradiction

theorem readsNamed_plain {tokens rest : List Token} {name : Token} (isName : name.isName)
    (split : tokens = name :: rest) : ReadsNamed tokens rest := by
  have starts : name.StartsOperand := .inr (.inr isName)
  have isIdentifier := Token.kind_of_isName isName
  obtain ⟨reading, found, -, left⟩ := readToken?_of split (ofToken?_of isName)
  refine ⟨tokens, reading, none, fun expr => expr.give (.plain expr.value), left,
    fun expr => ⟨rfl, rfl⟩, ?_⟩
  have noParen : readKind? .leftParen tokens = none :=
    readKind?_skips split (by simp [isIdentifier])
  have noConstant : readToken? Expr.constant? tokens = none :=
    readToken?_skips split (by simp [Expr.constant?, isIdentifier])
  rw [readPrimary, noParen]
  dsimp only
  rw [noConstant]
  dsimp only
  rw [found]

theorem readsNamed_dotted {tokens rest : List Token} {dot name : Token}
    (upTo : HeadUpTo false tokens (dot :: name :: rest)) (selects : dot.kind = .dot)
    (isName : name.isName) : ReadsNamed tokens rest := by
  obtain ⟨head, headRest, read, -⟩ := upTo
  obtain ⟨sign, found, signRest⟩ := readKind?_of headRest selects
  obtain ⟨reading, readName, left⟩ := readName_leaves signRest isName
  refine ⟨head.rest, sign.followedBy reading, some head.value.expr,
    fun expr => (head.followedBy expr).give (.plain expr.value), left, fun expr => ⟨rfl, rfl⟩, ?_⟩
  rw [read, readSelections, found]
  dsimp only
  rw [readName]
  rfl

theorem readArguments_of_starts {tokens more : List Token} {token : Token}
    (split : tokens = token :: more) (starts : token.StartsExpression) :
    readArguments tokens = readMoreArguments tokens := by
  have noParen : readKind? .rightParen tokens = none :=
    readKind?_skips split (starts.kind_ne rfl rfl)
  rw [readArguments, noParen]

theorem Grammar.Rank.Joins.grip {rank tighter : Rank} {kind : Kind} {op : BinaryOp}
    (joins : rank.Joins kind op tighter) :
    kind.grip < rank.reach ∧ rank.reach ≤ tighter.reach := by
  cases joins <;> decide

theorem Grammar.Rank.Covers.reach {rank tighter : Rank} (covers : rank.Covers tighter) :
    rank.reach ≤ tighter.reach := by
  cases covers <;> decide

theorem Reaches.binary {rank tighter : Rank} {op : BinaryOp} {tokens right rest : List Token}
    {sign : Token} (joins : rank.Joins sign.kind op tighter)
    (first : Reaches tokens (sign :: (right ++ rest)) rank)
    (second : Reaches (right ++ rest) rest tighter) (loose : Loose rank.reach rest) :
    Reaches tokens rest rank := by
  obtain ⟨level, rfl, rfl, stands⟩ := joins.level
  rw [level.reach_rank] at loose
  refine reaches_rank.mpr ((reaches_rank.mp first).binary stands fun others same => ?_)
  exact (readOperand_leaves second loose).along same

theorem Grammar.Arguments.starts {tokens : List Token} {next : Expr} {exprs : List Expr}
    (given : Arguments tokens (next :: exprs)) :
    ∃ token more, tokens = token :: more ∧ token.StartsExpression := by
  cases given with
  | one only => exact only.starts
  | more first _ _ =>
    obtain ⟨token, more, rfl, starts⟩ := first.starts
    exact ⟨token, _, rfl, starts⟩

theorem readMoreArguments_one {tokens rest : List Token} {closing : Token}
    (only : Leaves (readExpr tokens) (closing :: rest)) (closes : closing.kind = .rightParen) :
    Leaves (readMoreArguments tokens) rest := by
  rw [readMoreArguments]
  refine .bind only fun first firstRest => ?_
  have noComma : readKind? .comma first.rest = none := readKind?_skips firstRest (by simp [closes])
  rw [noComma]
  exact .bind (readKind_leaves firstRest closes) fun close closeRest => .ofReading closeRest

theorem readMoreArguments_more {tokens middle rest : List Token} {comma : Token}
    (first : Leaves (readExpr tokens) (comma :: middle)) (separates : comma.kind = .comma)
    (others : Leaves (readMoreArguments middle) rest) : Leaves (readMoreArguments tokens) rest := by
  rw [readMoreArguments]
  refine .bind first fun first firstRest => ?_
  obtain ⟨sign, found, signRest⟩ := readKind?_of firstRest separates
  rw [found]
  exact .bind (others.along signRest) fun more moreRest => .ofReading moreRest

mutual

/-- An expression is read to its end, or up to the loop of its rank, if what follows holds on to it
no more tightly. -/
theorem Grammar.Expression.reaches {rank : Rank} {front : List Token} {expr : Expr} :
    Expression rank front expr → ∀ {rest}, Loose rank.reach rest →
      Reaches (front ++ rest) rest rank
  | .covered covers inner, _, loose =>
    .covered covers inner (inner.reaches (loose.mono covers.reach)) loose
  | .assign left assigns right, rest, loose => by
    rw [List.append_assoc, List.cons_append]
    obtain ⟨token, more, split, starts⟩ := left.startsOperand (.inr rfl)
    exact readExpr_assign (by rw [split]; rfl) starts
      (left.reaches (.ofKind assigns (by decide) (by decide))) assigns (right.reaches loose)
  | .binary joins left right, rest, loose => by
    -- The sign extends the left operand, which is of the rank of the whole; the right operand is of
    -- a tighter rank and ends before any sign of this one.
    rw [List.append_assoc, List.cons_append]
    exact .binary joins (left.reaches (.ofKind rfl joins.ne.2 joins.grip.1))
      (right.reaches (loose.mono joins.grip.2)) loose
  | .instanceOf tested tests named, rest, loose => by
    rw [List.append_assoc, List.cons_append]
    exact UpTo.instanceOf (tested.reaches (.ofTest tests)) tests named (loose.mono (by decide))
  | .unary stands inner, _, loose => readUnary_sign stands.before? (inner.reaches loose)
  | .new creates isName opens closes, _, _ => readUnary_new creates isName opens closes
  | .newArray creates isName opens inner closes, _, _ => by
    simp only [List.cons_append, List.append_assoc, List.nil_append]
    exact readUnary_newArray creates isName opens
      (inner.reaches (.ofKind closes (by decide) (by decide))) closes
  | .cast casts opens named separates inner closes, _, _ => by
    simp only [List.cons_append, List.append_assoc, List.nil_append]
    exact readUnary_cast casts opens named separates
      (inner.reaches (.ofKind closes (by decide) (by decide))) closes
  | .step inner stands, rest, _ => by
    rw [List.append_assoc]
    obtain ⟨token, more, split, starts⟩ := inner.startsOperand (.inl rfl)
    exact readUnary_step (by rw [split]; rfl) starts
      (inner.reaches (.ofKind rfl stands.ne.2 (Nat.lt_succ_of_lt stands.grip))) stands
  | .group opens inner closes, _, _ => by
    simp only [List.cons_append, List.append_assoc, List.nil_append]
    exact readPrimary_group opens (inner.reaches (.ofKind closes (by decide) (by decide))) closes
  | .int isInteger, _, _ =>
    readPrimary_constant (by simp [isInteger]) (by simp [Expr.constant?, isInteger])
  | .bool isBoolean, _, _ =>
    readPrimary_constant (by simp [isBoolean]) (by simp [Expr.constant?, isBoolean])
  | .string isString, _, _ =>
    readPrimary_constant (by simp [isString]) (by simp [Expr.constant?, isString])
  -- Names are read before it is known what they name, so what qualifies them is read once for all.
  | .call qualified isName opens given closes, rest, _ => by
    simp only [List.cons_append, List.append_assoc, List.nil_append]
    refine (qualified.reaches isName).upTo fun name qualifier left => ?_
    obtain ⟨expr, read, exprRest⟩ := readNamed_call left opens (given.reaches closes)
    exact ⟨expr, read, exprRest, fun isVariable => by contradiction⟩
  | .var qualified isName, rest, loose => by
    rw [List.append_assoc]
    refine (qualified.reaches isName).upTo fun name qualifier left => ?_
    obtain ⟨expr, read, exprRest, isVar⟩ := readNamed_var left loose
    exact ⟨expr, read, exprRest, fun _ => isVar⟩
  | .indexed qualified isName opens inner closes, rest, _ => by
    simp only [List.cons_append, List.append_assoc, List.nil_append]
    refine (qualified.reaches isName).upTo fun name qualifier left => ?_
    obtain ⟨expr, read, exprRest, isVar⟩ := readNamed_indexed left opens
      (inner.reaches (.ofKind closes (by decide) (by decide))) closes
    exact ⟨expr, read, exprRest, fun _ => isVar⟩

theorem Grammar.Qualifier.reaches {front : List Token} {qualifier : Option Expr} {name : Token} :
    Qualifier front qualifier → name.isName → ∀ {rest}, ReadsNamed (front ++ name :: rest) rest
  | .none, isName, _ => readsNamed_plain isName rfl
  | .dotted inner selects, isName, rest => by
    rw [List.append_assoc]
    exact readsNamed_dotted (inner.reaches (.ofKind selects (by decide) (by decide))) selects isName

theorem Grammar.Arguments.reaches {front : List Token} {arguments : List Expr} {closing : Token} :
    Arguments front arguments → closing.kind = .rightParen → ∀ {rest},
      Leaves (readArguments (front ++ closing :: rest)) rest
  | .none, closes, rest => by
    obtain ⟨close, found, left⟩ := readKind?_of rfl closes
    rw [readArguments, List.nil_append, found]
    exact .ofReading left
  | .one only, closes, rest => by
    obtain ⟨token, more, split, starts⟩ := only.starts
    rw [readArguments_of_starts (by rw [split]; rfl) starts]
    exact readMoreArguments_one (only.reaches (.ofKind closes (by decide) (by decide))) closes
  | .more first separates others, closes, rest => by
    obtain ⟨token, more, split, starts⟩ := first.starts
    obtain ⟨next, later, splitOthers, startsOther⟩ := others.starts
    rw [readArguments_of_starts (by rw [split]; rfl) starts, List.append_assoc, List.cons_append]
    refine readMoreArguments_more (first.reaches (.ofKind separates (by decide) (by decide)))
      separates ?_
    rw [← readArguments_of_starts (by rw [splitOthers]; rfl) startsOther]
    exact others.reaches closes

end

/-- An expression is read to its end where a token follows that holds on to nothing. -/
theorem Grammar.Expression.reads {tokens inside rest : List Token} {value : Expr} {closing : Token}
    {kind : Kind} (derived : Expression .assignment inside value)
    (split : tokens = inside ++ closing :: rest) (closes : closing.kind = kind)
    (notWord : kind ≠ .identifier) (loose : kind.grip < 1) :
    Leaves (readExpr tokens) (closing :: rest) := by
  rw [split]
  exact derived.reaches (.ofKind closes notWord loose)

end Bantam
