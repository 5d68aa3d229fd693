import Bantam.Proofs.Syntax.Lexemes
import Bantam.Proofs.Typing.ValidSpans

/-! Assignment compatibility of types by their written names. Names of classes are words, so no
class is called like an array, and a name is that of a class, that of an array or neither. On all
names but that of the type of `null`, compatibility is a partial order. -/
namespace Bantam

def IsArrayName (text : String) : Prop := ∃ element, text = element ++ "[]"

namespace Ty

theorem toList_text_ofReversed (reversed : List Char) :
    (ofReversed reversed).text.toList = reversed.reverse := by
  fun_induction ofReversed reversed with
  | case1 rest ih =>
    rw [text, String.toList_append, ih]
    simp
  | case2 reversed => exact String.toList_ofList

theorem text_ofText (text : String) : (ofText text).text = text := by
  rw [← String.toList_inj, ofText, toList_text_ofReversed, List.reverse_reverse]

theorem ofText_inj {first second : String} : ofText first = ofText second ↔ first = second := by
  constructor
  · intro same
    rw [← text_ofText first, same, text_ofText]
  · exact congrArg ofText

theorem isArray_ofText {text : String} : (ofText text).isArray = true ↔ IsArrayName text := by
  constructor
  · intro isArray
    have written := text_ofText text
    cases read : ofText text with
    | named name => rw [read] at isArray; contradiction
    | array element => exact ⟨element.text, by rw [← written, read]; rfl⟩
  · rintro ⟨element, rfl⟩
    rw [ofText, String.toList_append, List.reverse_append]
    rfl

theorem ofText_of_not_array {text : String} (noArray : ¬ IsArrayName text) :
    ofText text = .named text := by
  have written := text_ofText text
  cases read : ofText text with
  | named name => rw [← written, read]; rfl
  | array element => exact absurd (isArray_ofText.mp (by rw [read]; rfl)) noArray

end Ty

def IsWord (name : String) : Prop := ∀ c ∈ name.toList, isWordPart c = true

theorem IsWord.not_array {name : String} (word : IsWord name) : ¬ IsArrayName name := by
  rintro ⟨element, rfl⟩
  have bracket : ']' ∈ (element ++ "[]").toList := by simp
  exact absurd (word ']' bracket) (by decide)

theorem isWord_of_all {name : String} (all : name.toList.all isWordPart = true) : IsWord name :=
  List.all_eq_true.mp all

theorem isWord_null : IsWord "null" := isWord_of_all rfl

namespace Hierarchy
variable {hierarchy : Hierarchy} {lower middle upper : String}

/-- Values of the type that the first text names can be used where the second is asked for. -/
def conformsText (hierarchy : Hierarchy) (lower upper : String) : Bool :=
  hierarchy.conforms (.ofText lower) (.ofText upper)

def NamedByWords (hierarchy : Hierarchy) : Prop := ∀ name ∈ hierarchy.names, IsWord name

namespace NamedByWords
variable (words : hierarchy.NamedByWords)
include words

theorem not_array {id : ClassId} (isClass : hierarchy.idOf? lower = some id) :
    ¬ IsArrayName lower := by
  apply IsWord.not_array
  apply words
  rw [← isSome_idOf?, isClass]
  rfl

theorem classOf?_ofText (text : String) :
    hierarchy.classOf? (.ofText text) = hierarchy.idOf? text := by
  by_cases isArray : IsArrayName text
  · have unknown : hierarchy.idOf? text = none := by
      cases found : hierarchy.idOf? text with
      | none => rfl
      | some id => exact absurd isArray (words.not_array found)
    have read := Ty.isArray_ofText.mpr isArray
    cases found : Ty.ofText text with
    | named name => rw [found] at read; contradiction
    | array element => exact unknown.symm
  · rw [Ty.ofText_of_not_array isArray]
    rfl

/-- A name conforms to itself, that of the type of `null` to those of arrays and classes, that of an
array to the root class, and that of a class to those of the classes above it. -/
theorem conformsText_iff : hierarchy.conformsText lower upper = true ↔
    lower = upper ∨
      (lower = "null" ∧ (IsArrayName upper ∨ (hierarchy.idOf? upper).isSome)) ∨
      (IsArrayName lower ∧ upper = rootClass) ∨
      (lower ≠ "null" ∧ ∃ low high, hierarchy.idOf? lower = some low ∧
        hierarchy.idOf? upper = some high ∧ hierarchy.isSubclass low high = true) := by
  rw [conformsText, conforms.eq_def, Bool.or_eq_true, beq_iff_eq, Ty.ofText_inj]
  apply or_congr Iff.rfl
  by_cases isArray : IsArrayName lower
  · have noNull : lower ≠ "null" := by
      rintro rfl
      exact isWord_null.not_array isArray
    have noClass (id : ClassId) : hierarchy.idOf? lower ≠ some id :=
      fun isClass => words.not_array isClass isArray
    have root : Ty.ofText rootClass = .named rootClass := rfl
    have read := Ty.isArray_ofText.mpr isArray
    cases found : Ty.ofText lower with
    | named name => rw [found] at read; contradiction
    | array element =>
      dsimp only
      rw [beq_iff_eq, ← root, Ty.ofText_inj]
      simp [noNull, noClass, isArray]
  · rw [Ty.ofText_of_not_array isArray]
    dsimp only
    by_cases isNull : lower = "null"
    · rw [if_pos isNull, Bool.or_eq_true, Ty.isArray_ofText, words.classOf?_ofText]
      simp [isNull, isWord_null.not_array]
    · rw [if_neg isNull, words.classOf?_ofText]
      cases hierarchy.idOf? lower with
      | none => simp [isNull, isArray]
      | some low =>
        cases hierarchy.idOf? upper with
        | none => simp [isNull, isArray]
        | some high => simp [isNull, isArray]

end NamedByWords

/-- Compatibility of names is a partial order, if that of the type of `null` is left out, and the
names that a name conforms to are known: for a class those of the classes on the way up to the root,
for an array the root class, and for any other name none but itself. The type of `null` conforms to
all arrays and classes. -/
structure CompatibilityOrder (hierarchy : Hierarchy) : Prop where
  refl : ∀ name, hierarchy.conformsText name name = true
  trans : ∀ lower middle upper, lower ≠ "null" → middle ≠ "null" →
    hierarchy.conformsText lower middle = true → hierarchy.conformsText middle upper = true →
    hierarchy.conformsText lower upper = true
  antisymm : ∀ lower upper, lower ≠ "null" → upper ≠ "null" →
    hierarchy.conformsText lower upper = true → hierarchy.conformsText upper lower = true →
    lower = upper
  of_class : ∀ name id, name ≠ "null" → hierarchy.idOf? name = some id → ∀ upper,
    hierarchy.conformsText name upper = true ↔
      upper = name ∨ ∃ above ∈ hierarchy.ancestors id, hierarchy.nameOf above = upper
  chain : ∀ name id, hierarchy.idOf? name = some id →
    List.IsChain hierarchy.Extends (id :: hierarchy.ancestors id) ∧
      hierarchy.nameOf ((id :: hierarchy.ancestors id).getLast (List.cons_ne_nil _ _)) = rootClass
  of_array : ∀ name, IsArrayName name → ∀ upper,
    hierarchy.conformsText name upper = true ↔ upper = name ∨ upper = rootClass
  of_other : ∀ name, name ≠ "null" → hierarchy.idOf? name = none → ¬ IsArrayName name →
    ∀ upper, hierarchy.conformsText name upper = true ↔ upper = name
  of_null : ∀ upper, hierarchy.conformsText "null" upper = true ↔
    upper = "null" ∨ IsArrayName upper ∨ (hierarchy.idOf? upper).isSome

namespace IsTree
variable (tree : hierarchy.IsTree)
include tree

theorem name_unique {first second : String} {id : ClassId}
    (left : hierarchy.idOf? first = some id) (right : hierarchy.idOf? second = some id) :
    first = second := by
  rw [tree.idOf?_iff] at left right
  exact Option.some.inj (left.symm.trans right)

theorem nameOf_eq_iff {name : String} {id : ClassId} (inside : id < hierarchy.size) :
    hierarchy.nameOf id = name ↔ hierarchy.idOf? name = some id := by
  obtain ⟨node, found⟩ := exists_node inside
  rw [tree.idOf?_iff, nameOf, found]
  simp

theorem eq_root_of_isSubclass {root high : ClassId} (isRoot : hierarchy.idOf? rootClass = some root)
    (below : hierarchy.isSubclass root high = true) : root = high := by
  obtain ⟨node, found⟩ := exists_node (idOf?_lt isRoot)
  have named : node.name = rootClass := by
    rw [tree.idOf?_iff, found] at isRoot
    exact Option.some.inj isRoot
  have parentless : hierarchy.parentOf? root = none :=
    (parentOf?_eq found).trans ((tree.parentless_iff root node found).mpr named)
  rw [isSubclass, ancestors_of_parentless parentless] at below
  simpa using below

variable (words : hierarchy.NamedByWords)
include words

theorem not_array_rootClass : ¬ IsArrayName rootClass := by
  obtain ⟨root, isRoot⟩ := tree.has_root
  exact words.not_array isRoot

theorem conformsText_trans (ofType : lower ≠ "null") (ofOther : middle ≠ "null")
    (first : hierarchy.conformsText lower middle = true)
    (second : hierarchy.conformsText middle upper = true) :
    hierarchy.conformsText lower upper = true := by
  rw [words.conformsText_iff] at first second ⊢
  -- An array can only go on to the root, above which there is nothing; a class can only go on to a
  -- class, because no class is called like an array.
  rcases first with rfl | ⟨isNull, -⟩ | ⟨isArray, rfl⟩ | ⟨-, low, mid, isLow, isMid, below⟩
  · exact second
  · contradiction
  · rcases second with rfl | ⟨isNull, -⟩ | ⟨rootIsArray, -⟩ | ⟨-, root, high, isRoot, isHigh, above⟩
    · exact .inr (.inr (.inl ⟨isArray, rfl⟩))
    · contradiction
    · exact absurd rootIsArray (tree.not_array_rootClass words)
    · obtain rfl := tree.eq_root_of_isSubclass isRoot above
      exact .inr (.inr (.inl ⟨isArray, tree.name_unique isHigh isRoot⟩))
  · rcases second with rfl | ⟨isNull, -⟩ | ⟨isArray, -⟩ | ⟨-, other, high, isOther, isHigh, above⟩
    · exact .inr (.inr (.inr ⟨ofType, low, mid, isLow, isMid, below⟩))
    · contradiction
    · exact absurd isArray (words.not_array isMid)
    · cases isMid.symm.trans isOther
      exact .inr (.inr (.inr ⟨ofType, low, high, isLow, isHigh, tree.trans _ _ _ below above⟩))

theorem conformsText_antisymm (ofType : lower ≠ "null") (ofOther : upper ≠ "null")
    (up : hierarchy.conformsText lower upper = true)
    (down : hierarchy.conformsText upper lower = true) : lower = upper := by
  rw [words.conformsText_iff] at up down
  rcases up with same | ⟨isNull, -⟩ | ⟨isArray, rfl⟩ | ⟨-, low, high, isLow, isHigh, below⟩
  · exact same
  · contradiction
  · rcases down with same | ⟨isNull, -⟩ | ⟨rootIsArray, -⟩ | ⟨-, -, id, -, isClass, -⟩
    · exact same.symm
    · contradiction
    · exact absurd rootIsArray (tree.not_array_rootClass words)
    · exact absurd isArray (words.not_array isClass)
  · rcases down with same | ⟨isNull, -⟩ | ⟨isArray, -⟩ | ⟨-, high', low', isHigh', isLow', above⟩
    · exact same.symm
    · contradiction
    · exact absurd isArray (words.not_array isHigh)
    · cases isHigh.symm.trans isHigh'
      cases isLow.symm.trans isLow'
      obtain rfl := tree.antisymm _ _ below above
      exact tree.name_unique isLow isHigh

theorem conformsText_of_class {name : String} {id : ClassId} (ofType : name ≠ "null")
    (isClass : hierarchy.idOf? name = some id) (upper : String) :
    hierarchy.conformsText name upper = true ↔
      upper = name ∨ ∃ above ∈ hierarchy.ancestors id, hierarchy.nameOf above = upper := by
  rw [words.conformsText_iff]
  constructor
  · rintro (rfl | ⟨isNull, -⟩ | ⟨isArray, -⟩ | ⟨-, low, high, isLow, isHigh, below⟩)
    · exact .inl rfl
    · contradiction
    · exact absurd isArray (words.not_array isClass)
    · cases isClass.symm.trans isLow
      rw [isSubclass, Bool.or_eq_true, beq_iff_eq, List.contains_iff_mem] at below
      rcases below with rfl | above
      · exact .inl (tree.name_unique isHigh isClass)
      · exact .inr ⟨high, above, (tree.nameOf_eq_iff (idOf?_lt isHigh)).mpr isHigh⟩
  · rintro (rfl | ⟨above, isAbove, named⟩)
    · exact .inl rfl
    · have inside := lt_of_mem_ancestors tree.closed isAbove
      refine .inr (.inr (.inr ⟨ofType, id, above, isClass, ?_, ?_⟩))
      · exact (tree.nameOf_eq_iff inside).mp named
      · rw [isSubclass, Bool.or_eq_true, List.contains_iff_mem]
        exact .inr isAbove

theorem compatibilityOrder : hierarchy.CompatibilityOrder where
  refl name := words.conformsText_iff.mpr (.inl rfl)
  trans _ _ _ := tree.conformsText_trans words
  antisymm _ _ := tree.conformsText_antisymm words
  of_class _ _ := tree.conformsText_of_class words
  chain name id isClass := by
    have inside := idOf?_lt isClass
    have root := tree.ends_at_root id inside
    exact ⟨tree.isChain id, (tree.nameOf_eq_iff (idOf?_lt root)).mpr root⟩
  of_array name isArray upper := by
    have noNull : name ≠ "null" := by
      rintro rfl
      exact isWord_null.not_array isArray
    have noClass (id : ClassId) : hierarchy.idOf? name ≠ some id :=
      fun isClass => words.not_array isClass isArray
    rw [words.conformsText_iff, @eq_comm _ name]
    simp [noNull, noClass, isArray]
  of_other name ofType unknown noArray upper := by
    rw [words.conformsText_iff, @eq_comm _ name]
    simp [ofType, unknown, noArray]
  of_null upper := by
    rw [words.conformsText_iff, @eq_comm _ _ upper]
    simp [isWord_null.not_array]

end IsTree

end Hierarchy

theorem isWord_of_scan {source : String} {token : Token} (member : token ∈ scan source)
    (isName : token.isName) : IsWord token.spelling :=
  isWordPart_of_scan member (Token.kind_of_isName isName)

theorem SourceFile.Declares.isWord {file : SourceFile} {decl : ClassDecl}
    (declares : file.Declares decl) : IsWord decl.name := by
  obtain ⟨program, read, member⟩ := declares
  have admits : Grammar.Located.Admits ⟨fun _ => True, IsWord⟩ (Grammar.meaningful file.text) :=
    ⟨fun _ _ _ _ _ => trivial,
      fun _ member isName => isWord_of_scan (scan_of_meaningful member).1 isName⟩
  exact (within_of_admits admits read decl member).2.word

namespace Hierarchy
variable {earlier : List Diagnostic} {files : List SourceFile} {program : Program}

theorem isWord_builtin : ∀ name ∈ builtins.names, IsWord name := by
  have all : builtins.names.all (fun name => name.toList.all isWordPart) = true := by
    rw [names_builtins]
    rfl
  intro name member
  exact isWord_of_all (List.all_eq_true.mp all name member)

theorem namedByWords_ofProgram (read : (parseFiles earlier files).1 = .ok program) :
    (ofProgram program).1.NamedByWords := by
  intro name member
  rw [names_ofProgram, names, List.mem_map] at member
  obtain ⟨node, member, rfl⟩ := member
  obtain ⟨id, found⟩ := List.mem_iff_getElem?.mp member
  rcases node?_registered found with builtin | ⟨-, index, decl, here, rfl⟩
  · exact isWord_builtin _ (List.mem_map_of_mem (List.mem_of_getElem? builtin))
  · obtain ⟨file, -, declares⟩ := (mem_parseFiles read decl).mp (List.mem_of_getElem? here)
    exact declares.isWord

/-- In the hierarchy of every program that is parsed, compatibility of names is a partial order. -/
theorem compatibility_is_order (read : (parseFiles earlier files).1 = .ok program) :
    (ofProgram program).1.CompatibilityOrder :=
  (isTree_ofProgram program).compatibilityOrder (namedByWords_ofProgram read)

theorem parseFiles_single {file : SourceFile}
    (read : (parse file.name file.text).1 = .ok program) :
    (parseFiles [] [file]).1 = .ok program := by
  rw [parse] at read
  rw [parseFiles]
  split
  · next failed =>
    rw [failed] at read
    contradiction
  · next succeeded =>
    rw [succeeded] at read
    cases read
    show Except.ok (⟨program.classes ++ []⟩ : Program) = .ok program
    rw [List.append_nil]

theorem compatibility_is_order_array :
    (parseFiles [] [⟨"A.btm", "class A \x7b\x7d"⟩]).1 =
      .ok ⟨[⟨"A", none, [], "A.btm", ⟨0, 10, 1⟩⟩]⟩ ∧
    (ofProgram ⟨[⟨"A", none, [], "A.btm", ⟨0, 10, 1⟩⟩]⟩).1.CompatibilityOrder ∧
    (ofProgram ⟨[⟨"A", none, [], "A.btm", ⟨0, 10, 1⟩⟩]⟩).1.conformsText "A[]" "Object" = true ∧
    (ofProgram ⟨[⟨"A", none, [], "A.btm", ⟨0, 10, 1⟩⟩]⟩).1.conformsText "A" "A[]" = false := by
  have tokens : Grammar.meaningful "class A \x7b\x7d" =
      [⟨.identifier, "class", ⟨0, 5, 1⟩⟩, ⟨.identifier, "A", ⟨6, 7, 1⟩⟩,
        ⟨.leftBrace, "\x7b", ⟨8, 9, 1⟩⟩, ⟨.rightBrace, "\x7d", ⟨9, 10, 1⟩⟩] := by
    rw [Grammar.meaningful, scan_eq 11 (by decide)]
    rfl
  have read : (parseFiles [] [⟨"A.btm", "class A \x7b\x7d"⟩]).1 =
      .ok ⟨[⟨"A", none, [], "A.btm", ⟨0, 10, 1⟩⟩]⟩ := by
    apply parseFiles_single
    rw [parse_eq_ok_iff, tokens]
    cbv
  exact ⟨read, compatibility_is_order read, rfl, rfl⟩

end Hierarchy

end Bantam
