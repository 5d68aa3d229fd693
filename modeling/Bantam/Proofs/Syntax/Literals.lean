import Bantam.Proofs.Syntax.Constants
import Bantam.Proofs.Syntax.StringConstants

/-! Constants that can be relied on. What makes a value of the spelling of a constant may fail in
itself: digits may make up no 32-bit integer, and a piece of a text may not be there. It never does
for the tokens of a source text, as the scanner has let through nothing else. Main statement: every
constant token has its value, which is that of one constant of the program. -/
namespace Bantam

inductive IntegerError where
  | empty
  | invalidDigit
  | outOfRange
  deriving DecidableEq, Repr

def readDigits (negative : Bool) (value : Int) : List Char → Except IntegerError Int
  | [] => .ok value
  | c :: rest =>
    if isDigit c then
      let digit : Int := (c.toNat - '0'.toNat : Nat)
      let next := 10 * value + if negative then -digit else digit
      if -2147483648 ≤ next ∧ next ≤ 2147483647 then readDigits negative next rest
      else .error .outOfRange
    else .error .invalidDigit

/-- Reads an integer of 32 bits: perhaps a sign, and digits behind it. -/
def readInteger : List Char → Except IntegerError Int
  | [] => .error .empty
  | first :: rest =>
    if first = '+' ∨ first = '-' then
      if rest = [] then .error .invalidDigit else readDigits (first = '-') 0 rest
    else readDigits false 0 (first :: rest)

def IsDigits (text : List Char) : Prop := text ≠ [] ∧ ∀ c ∈ text, isDigit c = true

def appendDigit (value : Nat) (digit : Char) : Nat := 10 * value + (digit.toNat - '0'.toNat)

theorem decimalValue_eq (digits : List Char) :
    decimalValue digits = digits.foldl appendDigit 0 := rfl

theorem le_foldl_appendDigit (digits : List Char) (value : Nat) :
    value ≤ digits.foldl appendDigit value := by
  induction digits generalizing value with
  | nil => exact Nat.le_refl value
  | cons digit rest ih =>
    have first : value ≤ appendDigit value digit := by
      unfold appendDigit
      omega
    exact first.trans (ih _)

/-- That a value has left 32 bits on the way is seen from where the digits lead to: more digits make
it no smaller. -/
theorem readDigits_eq {digits : List Char} (all : ∀ c ∈ digits, isDigit c = true) {value : Nat}
    (small : value ≤ maxInteger) : readDigits false value digits =
      if digits.foldl appendDigit value ≤ maxInteger then
        .ok (digits.foldl appendDigit value : Nat)
      else .error .outOfRange := by
  induction digits generalizing value with
  | nil => exact (if_pos small).symm
  | cons digit rest ih =>
    obtain ⟨isDigit, others⟩ := List.forall_mem_cons.mp all
    have next : (10 * (value : Int) + (digit.toNat - '0'.toNat : Nat)) =
        (appendDigit value digit : Nat) := by
      unfold appendDigit
      push_cast
      rfl
    rw [readDigits, if_pos isDigit, List.foldl_cons]
    simp only [Bool.false_eq_true, if_false, next]
    have range : (-2147483648 ≤ ((appendDigit value digit : Nat) : Int) ∧
        ((appendDigit value digit : Nat) : Int) ≤ 2147483647) ↔
          appendDigit value digit ≤ maxInteger := by
      unfold maxInteger
      omega
    by_cases fits : appendDigit value digit ≤ maxInteger
    · rw [if_pos (range.mpr fits), ih others fits]
    · have left := le_foldl_appendDigit rest (appendDigit value digit)
      rw [if_neg fun inside => fits (range.mp inside),
        if_neg fun inside => fits (left.trans inside)]

theorem readInteger_eq {text : List Char} (digits : IsDigits text) : readInteger text =
    if decimalValue text ≤ maxInteger then .ok (decimalValue text : Nat)
    else .error .outOfRange := by
  obtain ⟨nonempty, all⟩ := digits
  obtain ⟨first, rest, rfl⟩ := List.exists_cons_of_ne_nil nonempty
  have isDigit := all first List.mem_cons_self
  have unsigned : ¬ (first = '+' ∨ first = '-') := by rintro (rfl | rfl) <;> contradiction
  rw [readInteger, if_neg unsigned, decimalValue_eq]
  exact readDigits_eq all (Nat.zero_le _)

def splitBytes? (offset : Nat) : List Char → Option (List Char × List Char)
  | [] => if offset = 0 then some ([], []) else none
  | c :: rest =>
    if offset = 0 then some ([], c :: rest)
    else if c.utf8Size ≤ offset then
      (splitBytes? (offset - c.utf8Size) rest).map fun (front, back) => (c :: front, back)
    else none

def slice? (start stop : Nat) (text : List Char) : Option (List Char) := do
  let (front, _) ← splitBytes? stop text
  let (_, piece) ← splitBytes? start front
  return piece

theorem splitBytes?_append (before after : List Char) :
    splitBytes? (bytes before).length (before ++ after) = some (before, after) := by
  induction before with
  | nil => cases after <;> rfl
  | cons c rest ih =>
    have length : (bytes (c :: rest)).length = (bytes rest).length + c.utf8Size := by
      rw [bytes_cons, List.length_append, String.length_utf8EncodeChar, Nat.add_comm]
    have positive := c.utf8Size_pos
    rw [List.cons_append, splitBytes?, if_neg (by omega), if_pos (by omega), length,
      Nat.add_sub_cancel, ih]
    rfl

theorem slice?_append (before piece after : List Char) :
    slice? (bytes before).length (bytes (before ++ piece)).length (before ++ piece ++ after) =
      some piece := by
  rw [slice?, splitBytes?_append]
  simp [splitBytes?_append]

inductive ConstantError where
  | invalidInteger
  -- There is nothing to be cut out of the spelling between its first byte and its last.
  | outOfBounds
  deriving DecidableEq, Repr

def ConstantError.message : ConstantError → String
  | invalidInteger => "invalid integer constant"
  | outOfBounds => "text out of bounds"

/-- The constant that a token is, with all that can go wrong when its value is made. -/
def Expr.constantChecked (token : Token) : Except ConstantError (Option Expr) :=
  match token.kind with
  | .integer =>
    match readInteger token.spelling.toList with
    | .ok value => .ok (some (.int ⟨token.span, none⟩ value.toNat))
    | .error _ => .error .invalidInteger
  | .string =>
    match slice? 1 (token.spelling.utf8ByteSize - 1) token.spelling.toList with
    | some text => .ok (some (.string ⟨token.span, none⟩ (String.ofList text)))
    | none => .error .outOfBounds
  | _ => .ok (Expr.constant? token)

/-- What a token says that is spelled as a constant. -/
inductive Token.Denotes (token : Token) : Constant → Prop
  | int (isInteger : token.kind = .integer) (digits : IsDigits token.spelling.toList)
      (inRange : decimalValue token.spelling.toList ≤ 2147483647) :
      Denotes token (.int (decimalValue token.spelling.toList))
  | bool (isBoolean : token.kind = .boolean) {value : Bool}
      (spelled : token.spelling = toString value) : Denotes token (.bool value)
  | string (isString : token.kind = .string) {text : List Char}
      (quoted : token.spelling.toList = '"' :: text ++ ['"']) :
      Denotes token (.string (String.ofList text))

section Scan
variable {source : String} {token : Token}

theorem digits_of_scan (member : token ∈ scan source) (isInteger : token.kind = .integer) :
    IsDigits token.spelling.toList ∧ decimalValue token.spelling.toList ≤ maxInteger := by
  obtain ⟨first, rest, given, spelled⟩ :=
    lexeme_of_scan member (by simp [isInteger]) (by simp [isInteger])
  rw [isInteger] at given
  cases Lexeme.readBy_of_outcome given with
  | word _ _ isWord => rcases isWord with isWord | isWord <;> contradiction
  | sign noLiteral => contradiction
  | integer digit isRead =>
    rw [isRead] at given spelled
    dsimp only [Lexeme.integer] at given spelled
    rw [take_length_takeWhile] at spelled
    rw [spelled]
    refine ⟨⟨List.cons_ne_nil _ _, List.forall_mem_cons.mpr ⟨digit, fun c inside => ?_⟩⟩, ?_⟩
    · exact List.mem_takeWhile_imp inside
    · by_contra large
      rw [if_neg large] at given
      contradiction

theorem truth_of_scan (member : token ∈ scan source) (isBoolean : token.kind = .boolean) :
    token.spelling = toString (token.spelling == "true") := by
  obtain ⟨first, rest, given, spelled⟩ :=
    lexeme_of_scan member (by simp [isBoolean]) (by simp [isBoolean])
  rw [isBoolean] at given
  cases Lexeme.readBy_of_outcome given with
  | sign noLiteral => contradiction
  | word _ isRead =>
    rw [isRead] at given spelled
    dsimp only [Lexeme.word] at given spelled
    rw [take_length_takeWhile] at spelled
    rw [← spelled] at given
    split at given
    · next isTruth =>
      rcases isTruth with isTrue | isFalse
      · rw [String.ext isTrue]
        rfl
      · rw [String.ext isFalse]
        rfl
    · contradiction

theorem quoted_of_scan (member : token ∈ scan source) (isString : token.kind = .string) :
    ∃ text, token.spelling.toList = '"' :: text ++ ['"'] := by
  rcases Cursor.lexeme_of_mem_tokens member with rfl | ⟨before, first, rest, -, -, rfl⟩
  · contradiction
  have given := Cursor.outcome_of_valid (by rw [isString]; decide)
  rw [isString] at given
  cases Lexeme.readBy_of_outcome given with
  | word _ _ isWord => rcases isWord with isWord | isWord <;> contradiction
  | sign noLiteral => contradiction
  | string quote =>
    subst quote
    obtain ⟨units, behind, run⟩ := StringUnit.exists_maximalRun rest
    have place : (Cursor.ofText source).position = Position.first := rfl
    rw [place, StringUnit.readLexeme_tokenOf before run] at isString ⊢
    unfold StringUnit.tokenOf at isString ⊢
    -- Only the token of a closed string without a fault is a string constant.
    split at isString
    · dsimp only at isString ⊢
      cases fault : StringUnit.fault? units with
      | some message =>
        rw [fault] at isString
        contradiction
      | none => exact ⟨StringUnit.textOf units, String.toList_ofList⟩
    · contradiction
    · contradiction

theorem isLetter_of_isDigit {c : Char} (digit : isDigit c = true) : isLetter c = false := by
  simp only [isDigit, Bool.and_eq_true, decide_eq_true_eq, Char.le_def,
    UInt32.le_iff_toNat_le] at digit
  have atMost : c.val.toNat ≤ 57 := digit.2
  simp only [isLetter, Bool.or_eq_false_iff, Bool.and_eq_false_iff, decide_eq_false_iff_not,
    Char.le_def, UInt32.le_iff_toNat_le]
  exact ⟨.inl fun above => absurd (above.trans atMost) (by decide),
    .inl fun above => absurd (above.trans atMost) (by decide)⟩

/-- A token that starts at some digits, with no further digit behind them, is made up of them all:
an integer constant if their value is not too large. -/
theorem token_of_digits {before digits after : List Char}
    (whole : source.toList = before ++ digits ++ after) (isDigits : IsDigits digits)
    (ends : ∀ c ∈ after.head?, isDigit c = false) (member : token ∈ scan source)
    (start : token.span.start = (bytes before).length)
    (inRange : decimalValue digits ≤ maxInteger) :
    token = ⟨.integer, String.ofList digits, StringUnit.placeOf before digits⟩ := by
  obtain ⟨nonempty, all⟩ := isDigits
  obtain ⟨first, rest, rfl⟩ := List.exists_cons_of_ne_nil nonempty
  obtain ⟨digit, others⟩ := List.forall_mem_cons.mp all
  have part : (rest ++ after).takeWhile isDigit = rest := by
    rw [List.takeWhile_append_of_pos others]
    cases after with
    | nil => exact List.append_nil rest
    | cons c after =>
      rw [List.takeWhile_cons, ends c rfl]
      exact List.append_nil rest
  have noLetter := isLetter_of_isDigit digit
  have isRead : Lexeme.read first (rest ++ after) = ⟨.ok .integer, rest.length⟩ := by
    rw [Lexeme.read, noLetter, if_neg Bool.false_ne_true, if_pos digit, Lexeme.integer, part,
      if_pos inRange]
  rw [List.append_assoc, List.cons_append] at whole
  rw [lexeme_of_start whole member start, StringUnit.readLexeme_eq isRead]
  dsimp only
  rw [List.take_left]

theorem constantChecked_of_scan (member : token ∈ scan source) :
    Expr.constantChecked token = .ok (Expr.constant? token) := by
  unfold Expr.constantChecked
  split
  · next isInteger =>
    obtain ⟨digits, inRange⟩ := digits_of_scan member isInteger
    rw [readInteger_eq digits, if_pos inRange, Expr.constant?, isInteger]
    rfl
  · next isString =>
    obtain ⟨text, quoted⟩ := quoted_of_scan member isString
    have size : token.spelling.utf8ByteSize = (bytes ('"' :: text)).length + 1 := by
      rw [show token.spelling.utf8ByteSize = _ from size_toUTF8 _, quoted, bytes_append,
        List.length_append]
      rfl
    have inside : slice? 1 (token.spelling.utf8ByteSize - 1) token.spelling.toList = some text := by
      rw [size, Nat.add_sub_cancel, quoted]
      exact slice?_append ['"'] text ['"']
    rw [inside, Expr.constant?, isString, quoted]
    dsimp only
    rw [List.cons_append, List.tail_cons, List.dropLast_concat]
  · rfl

theorem denotes_of_scan {constant : Constant} (member : token ∈ scan source)
    (spelled : Constant.ofToken? token = some constant) : token.Denotes constant := by
  unfold Constant.ofToken? at spelled
  split at spelled
  · next isInteger =>
    cases spelled
    obtain ⟨digits, inRange⟩ := digits_of_scan member isInteger
    exact .int isInteger digits inRange
  · next isBoolean =>
    cases spelled
    exact .bool isBoolean (truth_of_scan member isBoolean)
  · next isString =>
    cases spelled
    obtain ⟨text, quoted⟩ := quoted_of_scan member isString
    rw [quoted, List.cons_append, List.tail_cons, List.dropLast_concat]
    exact .string isString quoted
  · contradiction

end Scan

theorem forall₂_filterMap {α β : Type} {relation : α → β → Prop} {choose : α → Option β}
    {list : List α} (related : ∀ a ∈ list, ∀ b, choose a = some b → relation a b) :
    List.Forall₂ relation (list.filter fun a => (choose a).isSome) (list.filterMap choose) := by
  induction list with
  | nil => exact .nil
  | cons a rest ih =>
    obtain ⟨first, others⟩ := List.forall_mem_cons.mp related
    cases chosen : choose a with
    | none =>
      rw [List.filterMap_cons_none chosen, List.filter_cons_of_neg (by simp [chosen])]
      exact ih others
    | some b =>
      rw [List.filterMap_cons_some chosen, List.filter_cons_of_pos (by simp [chosen])]
      exact .cons (first b chosen) (ih others)

theorem spelledConstants_denoted (source : String) :
    List.Forall₂ Token.Denotes ((scan source).filter (·.kind.category = .literal))
      (spelledConstants (scan source)) := by
  have literal : (fun token : Token => (Constant.ofToken? token).isSome) =
      fun token => decide (token.kind.category = .literal) := by
    funext token
    rw [Bool.eq_iff_iff, Option.isSome_iff_ne_none, ne_eq, Constant.ofToken?_eq_none_iff,
      decide_eq_true_eq, not_ne_iff]
  rw [← literal]
  exact forall₂_filterMap fun token member constant spelled => denotes_of_scan member spelled

-- An error that says so is never reported.
theorem append_ne {start other : String} (text : String)
    (differs : ¬ start.toList <+: other.toList) : start ++ text ≠ other := by
  rintro rfl
  rw [String.toList_append] at differs
  exact differs (List.prefix_append _ _)

theorem LexicalError.message_ne (error : LexicalError) :
    error.message ≠ ConstantError.invalidInteger.message := by
  cases error with
  | unsupportedCharacter c =>
    show toString "unsupported character '" ++ toString c ++ toString "'" ≠ _
    rw [String.append_assoc]
    exact append_ne _ (by decide)
  | illegalEscape c =>
    show toString "illegal escape sequence \\" ++ toString c ++ toString " in string" ≠ _
    rw [String.append_assoc]
    exact append_ne _ (by decide)
  | _ => decide

theorem SyntaxError.detail_ne (error : SyntaxError) :
    error.detail ≠ ConstantError.invalidInteger.message := by
  cases error with
  | invalidTarget span =>
    rw [detail]
    decide
  | unexpected expectation found =>
    rw [detail, String.append_assoc, String.append_assoc]
    exact append_ne _ (by decide)

theorem Token.spelling_ne {source : String} {token : Token} (member : token ∈ scan source)
    (invalid : token.kind = .invalid) :
    token.spelling ≠ ConstantError.invalidInteger.message := by
  rcases Cursor.lexeme_of_mem_tokens member with rfl | ⟨before, first, rest, -, -, rfl⟩
  · contradiction
  · unfold Cursor.readLexeme at invalid ⊢
    dsimp only at invalid ⊢
    split
    · next kind outcome =>
      rw [outcome] at invalid
      exact absurd invalid (Lexeme.proper_read _ _ _ outcome).1
    · exact LexicalError.message_ne _

theorem message_ne_of_parse {file source : String} {diagnostic : Diagnostic}
    (reported : diagnostic ∈ (parse file source).2) :
    diagnostic.message ≠ ConstantError.invalidInteger.message := by
  have lexical {rest : List Token} (member : diagnostic ∈
      ((Parser.ofText file source []).goTo rest).reported) :
      diagnostic.message ≠ ConstantError.invalidInteger.message := by
    rw [reported_goTo, List.nil_append, lexicalDiagnostics, List.mem_filterMap] at member
    obtain ⟨token, inside, isError⟩ := member
    unfold Token.diagnostic? at isError
    split at isError
    · next invalid =>
      cases isError
      exact Token.spelling_ne (List.mem_of_mem_filter (List.mem_of_mem_take inside)) invalid
    · contradiction
  rw [parse, parseAfter_eq] at reported
  split at reported
  · exact lexical reported
  · rcases List.mem_append.mp reported with earlier | last
    · exact lexical earlier
    · obtain rfl := List.mem_singleton.mp last
      exact SyntaxError.detail_ne _

/-- What the values of constants are made of never fails. Every integer constant is made up of
digits whose value fits into 32 bits, and every such digits at which a token starts, with no further
digit behind them, are one. Every string constant stands between two quotes. So the value of every
constant token can be made, and is the one it has in the program, which has one constant for each of
these tokens; that an integer could not be read is never reported. -/
theorem constants_never_fail (source : String) :
    (∀ token ∈ scan source, token.kind = .integer →
      IsDigits token.spelling.toList ∧ decimalValue token.spelling.toList ≤ 2147483647) ∧
    (∀ before digits after, source.toList = before ++ digits ++ after → IsDigits digits →
      (∀ c ∈ after.head?, isDigit c = false) → decimalValue digits ≤ 2147483647 →
      ∀ token ∈ scan source, token.span.start = (bytes before).length →
        token = ⟨.integer, String.ofList digits, StringUnit.placeOf before digits⟩) ∧
    (∀ token ∈ scan source, token.kind = .string → 2 ≤ token.spelling.utf8ByteSize ∧
      ∃ text, token.spelling.toList = '"' :: text ++ ['"']) ∧
    (∀ token ∈ scan source, Expr.constantChecked token = .ok (Expr.constant? token)) ∧
    (∀ file program, (parse file source).1 = .ok program →
      List.Forall₂ Token.Denotes ((scan source).filter (·.kind.category = .literal))
        program.constants) ∧
    ∀ file, ∀ diagnostic ∈ (parse file source).2,
      diagnostic.message ≠ ConstantError.invalidInteger.message := by
  refine ⟨fun _ => digits_of_scan, ?_, fun token member isString => ?_,
    fun _ => constantChecked_of_scan, fun file program read => ?_, fun _ _ => message_ne_of_parse⟩
  · intro before digits after whole isDigits ends inRange token member start
    exact token_of_digits whole isDigits ends member start inRange
  · obtain ⟨text, quoted⟩ := quoted_of_scan member isString
    refine ⟨?_, text, quoted⟩
    rw [show token.spelling.utf8ByteSize = _ from size_toUTF8 _, quoted, bytes_append,
      List.length_append]
    have opening : 0 < (bytes ('"' :: text)).length := bytes_pos (List.cons_ne_nil _ _)
    have closing : 0 < (bytes ['"']).length := bytes_pos (List.cons_ne_nil _ _)
    omega
  · rw [constants_of_parse read]
    exact spelledConstants_denoted source

end Bantam
