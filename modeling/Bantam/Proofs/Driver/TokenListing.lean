import Bantam.Listing.Tokens
import Bantam.Proofs.Driver.Messages
import Bantam.Proofs.Syntax.Scanning
import Bantam.Proofs.Syntax.TextLines

/-! Listings of tokens, line by line. A row is headed by the line and the kind of its token, and the
spelling of the token follows as it is. Only comments are spelled with line feeds, so a listing has
one line for a token exactly as long as every comment ends on the line on which it begins. -/
namespace Bantam

namespace Token

def heading (token : Token) : String :=
  alignRight 4 (toString token.line) ++ "  " ++ alignLeft 18 token.kind.label ++ " "

def entry (token : Token) : String := token.heading ++ token.spelling

theorem row_eq (token : Token) : token.row = token.entry ++ "\n" := rfl

theorem onOneLine_padding (width : Nat) (text : String) : OnOneLine (padding width text) := by
  apply onOneLine_ofList.mpr
  intro member
  have blank := List.eq_of_mem_replicate member
  contradiction

theorem onOneLine_label (kind : Kind) : OnOneLine kind.label := by
  cases kind <;> decide

theorem onOneLine_heading (token : Token) : OnOneLine token.heading := by
  simp only [heading, alignRight, alignLeft, onOneLine_append, onOneLine_padding, onOneLine_label,
    Nat.toString_eq_repr, onOneLine_nat, and_true, true_and]
  decide

theorem onOneLine_entry {token : Token} : OnOneLine token.entry ↔ OnOneLine token.spelling := by
  rw [entry, onOneLine_append, and_iff_right token.onOneLine_heading]

/-- The line feeds of a spelling are all that break its row. -/
theorem length_linesOf_row (token : Token) :
    (linesOf token.row).length = token.spelling.toList.count '\n' + 1 := by
  have heading : token.heading.toList.count '\n' = 0 :=
    List.count_eq_zero.mpr token.onOneLine_heading
  rw [length_linesOf, row_eq, entry, String.toList_append, String.toList_append, List.count_append,
    List.count_append, heading, Nat.zero_add]
  rfl

end Token

section Listing
variable {tokens : List Token}

theorem linesOf_listTokens (tokens : List Token) :
    linesOf (listTokens tokens) = tokens.flatMap fun token => linesOf token.row := by
  have rows := linesOf_rows (tokens.map Token.entry)
  rw [List.map_map, List.flatMap_map] at rows
  exact rows

theorem linesOf_listTokens_single (onOneLine : ∀ token ∈ tokens, OnOneLine token.spelling) :
    linesOf (listTokens tokens) = tokens.map Token.entry := by
  have rows := @linesOf_single_rows (tokens.map Token.entry)
  rw [List.map_map, List.forall_mem_map] at rows
  apply rows
  intro token member
  exact Token.onOneLine_entry.mpr (onOneLine token member)

theorem length_linesOf_listTokens (tokens : List Token) :
    (linesOf (listTokens tokens)).length =
      tokens.length + (tokens.flatMap fun token => token.spelling.toList).count '\n' := by
  rw [linesOf_listTokens]
  induction tokens with
  | nil => rfl
  | cons token rest ih =>
    rw [List.flatMap_cons, List.length_append, ih, Token.length_linesOf_row, List.flatMap_cons,
      List.count_append, List.length_cons]
    omega

theorem length_listing_iff : (linesOf (listTokens tokens)).length = tokens.length ↔
    ∀ token ∈ tokens, OnOneLine token.spelling := by
  rw [length_linesOf_listTokens, Nat.add_eq_left, List.count_eq_zero, List.mem_flatMap]
  constructor
  · intro none token member broken
    exact none ⟨token, member, broken⟩
  · rintro onOneLine ⟨token, member, broken⟩
    exact onOneLine token member broken

/-- Each token has a line of its own in the text, in order, which starts with the line and the kind
of the token. -/
structure OneLineEach (tokens : List Token) (text : String) : Prop where
  count : text.toList.count '\n' = tokens.length
  heads (index : Nat) (token : Token) : tokens[index]? = some token →
    ∃ spelled, (linesOf text)[index]? = some (token.heading ++ spelled)

theorem oneLineEach_iff :
    OneLineEach tokens (listTokens tokens) ↔ ∀ token ∈ tokens, OnOneLine token.spelling := by
  constructor
  · intro oneLineEach
    apply length_listing_iff.mp
    rw [length_linesOf]
    exact oneLineEach.count
  · intro onOneLine
    constructor
    · rw [← length_linesOf]
      exact length_listing_iff.mpr onOneLine
    · intro index token found
      refine ⟨token.spelling, ?_⟩
      rw [linesOf_listTokens_single onOneLine, List.getElem?_map, found]
      rfl

end Listing

/-- The listing of the tokens of a source text has the lines of their rows. The first line of a row
is headed, and the others, if there are some, go on with the spelling as it is; only a comment has
such others. So each token has a line of its own if and only if every comment ends on the line on
which it begins. -/
theorem listing_lines (source : String) :
    linesOf (listTokens (scan source)) = (scan source).flatMap (fun token => linesOf token.row) ∧
    (∀ token ∈ scan source, ∃ first others, linesOf (token.spelling ++ "\n") = first :: others ∧
      linesOf token.row = (token.heading ++ first) :: others) ∧
    (∀ token ∈ scan source, token.kind ≠ .comment → linesOf token.row = [token.entry]) ∧
    (OneLineEach (scan source) (listTokens (scan source)) ↔
      ∀ token ∈ scan source, token.kind = .comment → OnOneLine token.spelling) := by
  refine ⟨linesOf_listTokens _, ?_, ?_, ?_⟩
  · intro token _
    exact linesOf_continued token.onOneLine_heading token.spelling
  · intro token member noComment
    exact linesOf_row (Token.onOneLine_entry.mpr (onOneLine_scan member noComment))
  · rw [oneLineEach_iff]
    constructor
    · intro onOneLine token member _
      exact onOneLine token member
    · intro comments token member
      by_cases isComment : token.kind = .comment
      · exact comments token member isComment
      · exact onOneLine_scan member isComment

-- A comment that ends on the next line takes two lines of the listing.
theorem comment_listed_twice :
    ¬ OneLineEach (scan "/*\n*/") (listTokens (scan "/*\n*/")) := by
  have tokens : scan "/*\n*/" =
      [⟨.comment, "/*\n*/", ⟨0, 5, 1⟩⟩, ⟨.endOfInput, "", ⟨5, 5, 2⟩⟩] := by
    rw [scan_eq 6 (by decide)]
    rfl
  rw [tokens, oneLineEach_iff]
  decide

end Bantam
