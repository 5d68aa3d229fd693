import Bantam.Proofs.Syntax.OneLine

/-! The lines of a text. A line ends with a line feed, and what stands behind the last line feed is
no line. A text that is written row by row, with a line feed behind each of them, has the lines of
its rows one after the other. -/
namespace Bantam

/-- The lines that end in a text, without their line feeds. -/
def linesOf (text : String) : List String :=
  (text.toList.splitOn '\n').dropLast.map String.ofList

theorem linesOf_ended (row : String) :
    linesOf (row ++ "\n") = (row.toList.splitOn '\n').map String.ofList := by
  have split : (row.toList ++ ['\n']).splitOn '\n' = row.toList.splitOn '\n' ++ [[]] :=
    List.splitOn_append_cons_self ..
  rw [linesOf, String.toList_append, show "\n".toList = ['\n'] from rfl, split,
    List.dropLast_concat]

theorem linesOf_ended_append (row rest : String) :
    linesOf (row ++ "\n" ++ rest) = linesOf (row ++ "\n") ++ linesOf rest := by
  have split : (row.toList ++ '\n' :: rest.toList).splitOn '\n' =
      row.toList.splitOn '\n' ++ rest.toList.splitOn '\n' := List.splitOn_append_cons_self ..
  have nonempty : rest.toList.splitOn '\n' ≠ [] := List.splitOn_ne_nil _ _
  rw [linesOf_ended, linesOf, linesOf, String.toList_append, String.toList_append,
    show "\n".toList = ['\n'] from rfl, List.append_assoc, List.singleton_append, split,
    List.dropLast_append_of_ne_nil nonempty, List.map_append]

/-- The rows of a text that is written row by row. -/
theorem linesOf_rows (rows : List String) :
    linesOf (String.join (rows.map (· ++ "\n"))) =
      rows.flatMap fun row => linesOf (row ++ "\n") := by
  induction rows with
  | nil => rfl
  | cons row rest ih =>
    rw [List.map_cons, String.join_cons, linesOf_ended_append, ih, List.flatMap_cons]

theorem linesOf_row {row : String} (onOneLine : OnOneLine row) : linesOf (row ++ "\n") = [row] := by
  have whole : row.toList.splitOn '\n' = [row.toList] := List.splitOn_eq_singleton onOneLine
  rw [linesOf_ended, whole, List.map_singleton, String.ofList_toList]

theorem linesOf_single_rows {rows : List String} (onOneLine : ∀ row ∈ rows, OnOneLine row) :
    linesOf (String.join (rows.map (· ++ "\n"))) = rows := by
  rw [linesOf_rows]
  induction rows with
  | nil => rfl
  | cons row rest ih =>
    obtain ⟨here, later⟩ := List.forall_mem_cons.mp onOneLine
    rw [List.flatMap_cons, linesOf_row here, ih later]
    rfl

theorem splitOn_continued {front : List Char} (onOneLine : '\n' ∉ front) (rest : List Char) :
    (front ++ rest).splitOn '\n' = (rest.splitOn '\n').modifyHead (front ++ ·) := by
  induction front with
  | nil => exact (congrFun List.modifyHead_id _).symm
  | cons c front ih =>
    rw [List.mem_cons, not_or] at onOneLine
    obtain ⟨inside, later⟩ := onOneLine
    rw [List.cons_append, List.splitOn_cons_eq_if_modifyHead,
      if_neg (by simpa using Ne.symm inside), ih later, List.modifyHead_modifyHead]
    rfl

theorem linesOf_continued {front : String} (onOneLine : OnOneLine front) (text : String) :
    ∃ first others, linesOf (text ++ "\n") = first :: others ∧
      linesOf (front ++ text ++ "\n") = (front ++ first) :: others := by
  have continued := splitOn_continued onOneLine text.toList
  rw [linesOf_ended, linesOf_ended, String.toList_append, continued]
  cases split : text.toList.splitOn '\n' with
  | nil => exact absurd split (List.splitOn_ne_nil _ _)
  | cons first others =>
    refine ⟨String.ofList first, others.map String.ofList, rfl, ?_⟩
    rw [List.modifyHead_cons, List.map_cons, String.ofList_append, String.ofList_toList]

theorem length_linesOf (text : String) : (linesOf text).length = text.toList.count '\n' := by
  rw [linesOf, List.length_map, List.length_dropLast]
  induction text.toList with
  | nil => rfl
  | cons c rest ih =>
    have nonempty := List.splitOn_ne_nil '\n' rest
    rw [List.splitOn_cons_eq_if_modifyHead, List.count_cons, ← ih]
    have positive := List.length_pos_of_ne_nil nonempty
    split
    · rw [List.length_cons]
      omega
    · rw [List.length_modifyHead]
      rfl

end Bantam
