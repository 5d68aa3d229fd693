import Bantam.Proofs.Hierarchy.DistinctClasses
import Bantam.Proofs.Hierarchy.Interface
import Bantam.Proofs.Hierarchy.Namesakes

/-! Reordered programs. Where class names are distinct, the declarations of a program may be put in
another order: the same classes are built, with other numbers, and the same is reported of them. -/
namespace Bantam

namespace Hierarchy

variable {program permuted : Program} {left right : Hierarchy}

theorem alike_builtin {twin : ClassId → ClassId → Prop} (root : twin 0 0) {node : ClassNode}
    (member : node ∈ builtins.nodes) : node.Alike program permuted twin node := by
  obtain ⟨id, found⟩ := List.mem_iff_getElem?.mp member
  have empty {α : Type} : SymbolTable.Alike twin (.empty : SymbolTable α) .empty := ⟨rfl, .none⟩
  match id, found with
  | 0, found => cases found; exact ⟨.builtin _, rfl, .none, empty, empty⟩
  | 1, found => cases found; exact ⟨.builtin _, rfl, .some root, empty, empty⟩
  | 2, found => cases found; exact ⟨.builtin _, rfl, .some root, empty, empty⟩
  | 3, found => cases found; exact ⟨.builtin _, rfl, .some root, empty, empty⟩
  | _ + 4, found => cases found

theorem twin_root (program permuted : Program) :
    Twin (registered program) (registered permuted) 0 0 := by
  obtain ⟨rest, names⟩ := names_registered program
  obtain ⟨rest', names'⟩ := names_registered permuted
  exact ⟨rootClass, by rw [names]; rfl, by rw [names']; rfl⟩

theorem Alike.idOfClass? (alike : Alike program permuted left right) (decl : ClassDecl) :
    Option.Rel (Twin left right) (left.idOfClass? decl) (right.idOfClass? decl) := by
  rw [Hierarchy.idOfClass?, Hierarchy.idOfClass?]
  split
  · exact .none
  · exact alike.idOf? decl.name

/-- What is said about the class to start. -/
def starting (program : Program) : List Diagnostic :=
  ((program.findClass? mainClass).map startDiagnostics).getD [missingMain program]

theorem Enlists.mainDiagnostics_eq (enlists : left.Enlists program)
    (distinct : (program.classes.map ClassDecl.name).Nodup) :
    left.mainDiagnostics program = starting program := by
  rw [Hierarchy.mainDiagnostics_eq, enlists.findDecl_eq distinct (by decide), starting]

section Reordered
variable (distinct : (program.classes.map ClassDecl.name).Nodup)
  (reordered : program.classes.Perm permuted.classes)
include distinct reordered

theorem distinct_permuted : (permuted.classes.map ClassDecl.name).Nodup :=
  (reordered.map ClassDecl.name).nodup_iff.mp distinct

theorem alike_registered : Alike program permuted (registered program) (registered permuted) where
  names := by
    rw [names_registered_eq distinct, names_registered_eq (distinct_permuted distinct reordered)]
    exact ((reordered.filter _).map _).append_left _
  distinct := names_register_nodup (by decide) 0 program.classes
  node := by
    intro id id' node node' found found' same
    have clash {decl : ClassDecl} {builtin : ClassNode}
        (member : builtin ∈ builtins.nodes) (free : decl.name ∉ builtins.names)
        (same : builtin.name = decl.name) : False := free (same ▸ List.mem_map_of_mem member)
    -- No declared class has the name of a built-in one, so namesakes are of the same kind.
    rcases mem_registered distinct (List.mem_of_getElem? found) with
      builtin | ⟨index, decl, here, free, rfl⟩ <;>
    rcases mem_registered (distinct_permuted distinct reordered) (List.mem_of_getElem? found') with
      builtin' | ⟨place, decl', there, free', rfl⟩
    · have unique : builtins.names.Nodup := by decide
      obtain rfl := List.inj_on_of_nodup_map unique builtin builtin' same
      exact alike_builtin (twin_root program permuted) builtin
    · exact (clash builtin free' same).elim
    · exact (clash builtin' free same.symm).elim
    · have member := List.mem_of_getElem? here
      have member' := reordered.mem_iff.mpr (List.mem_of_getElem? there)
      obtain rfl := List.inj_on_of_nodup_map distinct member member' same
      exact ⟨.declared here there, rfl, .none, ⟨rfl, .none⟩, ⟨rfl, .none⟩⟩

theorem alike_linked : Alike program permuted (linked program) (linked permuted) :=
  (alike_registered distinct reordered).link

theorem alike_ofProgram :
    Alike program permuted (ofProgram program).1 (ofProgram permuted).1 :=
  (alike_linked distinct reordered).cutCycles.rebuild

/-- What is collected from the declared classes is the same if it is the same for namesakes. -/
theorem perm_filterMap_declared (enlists : left.Enlists program) (enlists' : right.Enlists permuted)
    (alike : Alike program permuted left right) {α : Type}
    {collect collect' : ClassId × ClassDecl → Option α}
    (same : ∀ {id id' : ClassId} (decl : ClassDecl), Twin left right id id' →
      collect (id, decl) = collect' (id', decl)) :
    ((left.declared program).filterMap collect).Perm
      ((right.declared permuted).filterMap collect') := by
  rw [enlists.declared_eq_filterMap distinct,
    enlists'.declared_eq_filterMap (distinct_permuted distinct reordered), List.filterMap_filterMap,
    List.filterMap_filterMap]
  have each (decl : ClassDecl) : ((left.idOfClass? decl).map (·, decl)).bind collect =
      ((right.idOfClass? decl).map (·, decl)).bind collect' := by
    rw [Option.bind_map, Option.bind_map]
    exact bind_eq_of_rel (alike.idOfClass? decl) (same decl)
  simp only [each]
  exact reordered.filterMap _

theorem perm_duplicates : (builtins.register 0 program.classes).2.Perm
    (builtins.register 0 permuted.classes).2 := by
  rw [register_duplicates _ _ distinct,
    register_duplicates _ _ (distinct_permuted distinct reordered)]
  exact (reordered.filter _).map _

theorem perm_parentDiagnostics : ((registered program).parentDiagnostics program).Perm
    ((registered permuted).parentDiagnostics permuted) := by
  have alike := alike_registered distinct reordered
  refine perm_filterMap_declared distinct reordered enlists_registered enlists_registered alike ?_
  intro id id' decl _
  dsimp only
  rcases alike.requestedParent decl with
    ⟨parent, parent', granted, granted', -⟩ | ⟨error, refused, refused'⟩
  · rw [granted, granted']
  · rw [refused, refused']

theorem perm_cycleDiagnostics : ((linked program).cycleDiagnostics program).Perm
    ((linked permuted).cycleDiagnostics permuted) := by
  have alike := alike_linked distinct reordered
  refine perm_filterMap_declared distinct reordered enlists_linked enlists_linked alike ?_
  intro id id' decl twin
  dsimp only
  rw [alike.onCycle twin]

theorem perm_memberDiagnostics (enlists : left.Enlists program)
    (enlists' : right.Enlists permuted) :
    (left.memberDiagnostics program).Perm (right.memberDiagnostics permuted) := by
  rw [memberDiagnostics, memberDiagnostics, enlists.origins_eq distinct fun _ => rfl,
    enlists'.origins_eq (distinct_permuted distinct reordered) fun _ => rfl]
  exact ((reordered.filter _).append_left _).flatMap_right _

theorem findClass?_permuted (name : String) :
    program.findClass? name = permuted.findClass? name := by
  apply Option.ext
  intro decl
  rw [Program.findClass?_eq_some_iff distinct,
    Program.findClass?_eq_some_iff (distinct_permuted distinct reordered), reordered.mem_iff]

/-- The same is reported of the classes and their members, but for the class to start. -/
theorem perm_declarationDiagnostics : ∃ others,
    program.declarationDiagnostics.Perm (starting program ++ others) ∧
      permuted.declarationDiagnostics.Perm (starting permuted ++ others) := by
  have enlists (program : Program) : (ofProgram program).1.Enlists program :=
    enlists_linked.cutCycles.rebuild
  have parts (program : Program) (distinct : (program.classes.map ClassDecl.name).Nodup) :
      program.declarationDiagnostics = (builtins.register 0 program.classes).2 ++
        (registered program).parentDiagnostics program ++
        (linked program).cycleDiagnostics program ++ starting program ++
        (ofProgram program).1.memberDiagnostics program := by
    rw [← (enlists program).mainDiagnostics_eq distinct]
    rfl
  have duplicates := perm_duplicates distinct reordered
  have parents := perm_parentDiagnostics distinct reordered
  have cycles := perm_cycleDiagnostics distinct reordered
  have members := perm_memberDiagnostics distinct reordered (enlists program) (enlists permuted)
  refine ⟨(builtins.register 0 program.classes).2 ++
    (registered program).parentDiagnostics program ++ (linked program).cycleDiagnostics program ++
    (ofProgram program).1.memberDiagnostics program, ?_, ?_⟩
  · rw [parts program distinct, List.perm_iff_count]
    intro diagnostic
    simp only [List.count_append]
    omega
  · rw [parts permuted (distinct_permuted distinct reordered), List.perm_iff_count]
    intro diagnostic
    have counts := And.intro (duplicates.count_eq diagnostic) (parents.count_eq diagnostic)
    have counts' := And.intro (cycles.count_eq diagnostic) (members.count_eq diagnostic)
    simp only [List.count_append]
    omega

/-- The class to start is the same, or it is missing in both orders. -/
theorem starting_permuted : starting program = starting permuted ∨
    program.findClass? mainClass = none ∧
      starting program = [missingMain program] ∧ starting permuted = [missingMain permuted] := by
  have same := findClass?_permuted distinct reordered mainClass
  rw [starting, starting, ← same]
  cases program.findClass? mainClass with
  | none => exact .inr ⟨rfl, rfl, rfl⟩
  | some decl => exact .inl rfl

end Reordered

end Hierarchy

end Bantam
