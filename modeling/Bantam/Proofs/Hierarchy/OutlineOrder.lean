import Bantam.Hierarchy.Outline
import Bantam.Proofs.Driver.Messages
import Bantam.Proofs.Hierarchy.Compatibility
import Bantam.Proofs.Syntax.TextLines

/-! Outlines, class by class. An outline is written by a recursion over children that knows no
bound. In a tree it ends, and it comes to every class once: first to the class itself, then to the
classes below it, child by child. -/
namespace Bantam

def ClassNode.line (depth : Nat) (node : ClassNode) : String :=
  String.join (List.replicate depth "  ") ++ node.caption

namespace Hierarchy

mutual

/-- The text that is written for a class and then for its children. -/
inductive Writes (hierarchy : Hierarchy) : Nat → ClassId → String → Prop
  | node {depth : Nat} {id : ClassId} {node : ClassNode} {below : String}
      (found : hierarchy.node? id = some node)
      (children : WritesAll hierarchy (depth + 1) node.children below) :
      Writes hierarchy depth id (node.line depth ++ "\n" ++ below)

inductive WritesAll (hierarchy : Hierarchy) : Nat → List ClassId → String → Prop
  | nil {depth : Nat} : WritesAll hierarchy depth [] ""
  | cons {depth : Nat} {id : ClassId} {rest : List ClassId} {text more : String}
      (first : Writes hierarchy depth id text) (others : WritesAll hierarchy depth rest more) :
      WritesAll hierarchy depth (id :: rest) (text ++ more)

end

variable {hierarchy : Hierarchy}

mutual

theorem Writes.unique {depth : Nat} {id : ClassId} {text other : String} :
    hierarchy.Writes depth id text → hierarchy.Writes depth id other → text = other
  | .node found children, .node again others => by
    cases found.symm.trans again
    rw [children.unique others]

theorem WritesAll.unique {depth : Nat} {ids : List ClassId} {text other : String} :
    hierarchy.WritesAll depth ids text → hierarchy.WritesAll depth ids other → text = other
  | .nil, .nil => rfl
  | .cons first others, .cons again more => by
    rw [first.unique again, others.unique more]

end

def depth (hierarchy : Hierarchy) (id : ClassId) : Nat := (hierarchy.ancestors id).length

def line (hierarchy : Hierarchy) (id : ClassId) : String :=
  ((hierarchy.node? id).map (ClassNode.line (hierarchy.depth id))).getD ""

def childrenOf (hierarchy : Hierarchy) (id : ClassId) : List ClassId :=
  ((hierarchy.node? id).map ClassNode.children).getD []

/-- A class and those below it, through this many generations, each before its children. -/
def preorder (hierarchy : Hierarchy) : Nat → ClassId → List ClassId
  | 0, _ => []
  | generations + 1, id =>
    id :: (hierarchy.childrenOf id).flatMap (hierarchy.preorder generations)

/-- From a class on, no class is further down than this many generations. -/
structure Suffices (hierarchy : Hierarchy) (generations : Nat) (id : ClassId) : Prop where
  inside : id < hierarchy.size
  bound : hierarchy.size ≤ generations + hierarchy.depth id

/-- An order in which the classes are listed: each class once, the classes below it directly behind
it and further down than it is, and siblings as they were registered. -/
structure Lists (hierarchy : Hierarchy) (order : List ClassId) : Prop where
  each_once : order.Perm hierarchy.ids
  block (id : ClassId) (node : ClassNode) : hierarchy.node? id = some node →
    ∃ before below after, order = before ++ id :: (below ++ after) ∧
      (∀ lower, lower ∈ below ↔ lower ≠ id ∧ hierarchy.isSubclass lower id = true) ∧
      (∀ lower ∈ below, hierarchy.depth id < hierarchy.depth lower) ∧
      (∀ next ∈ after.head?, hierarchy.depth next ≤ hierarchy.depth id) ∧
      below.length = node.descendants
  siblings : order.Pairwise fun first second =>
    hierarchy.parentOf? first = hierarchy.parentOf? second → first < second

variable {id : ClassId} {node : ClassNode}

theorem line_eq (found : hierarchy.node? id = some node) :
    hierarchy.line id = node.line (hierarchy.depth id) := by
  rw [line, found]
  rfl

theorem childrenOf_eq (found : hierarchy.node? id = some node) :
    hierarchy.childrenOf id = node.children := by
  rw [childrenOf, found]
  rfl

theorem suffices_root {root : ClassId} (isRoot : hierarchy.root? = some root) :
    hierarchy.Suffices hierarchy.size root :=
  ⟨idOf?_lt isRoot, Nat.le_add_right ..⟩

namespace IsTree
variable (tree : hierarchy.IsTree) {id child lower upper : ClassId} {generations : Nat}
include tree

theorem acyclic : hierarchy.Acyclic := by
  intro id circle
  have above := (mem_ancestors_iff tree.closed).mpr circle
  exact (List.nodup_cons.mp (tree.nodup id)).1 above

theorem mem_childrenOf : child ∈ hierarchy.childrenOf id ↔ hierarchy.Extends child id := by
  cases found : hierarchy.node? id with
  | none =>
    rw [childrenOf, found]
    constructor
    · intro member
      contradiction
    · intro step
      obtain ⟨node, isNode⟩ := exists_node (tree.closed child id step)
      rw [found] at isNode
      contradiction
  | some node =>
    rw [childrenOf_eq found]
    exact tree.mem_children_iff id node found child

theorem childrenOf_sorted (id : ClassId) : (hierarchy.childrenOf id).Pairwise (· < ·) := by
  cases found : hierarchy.node? id with
  | none =>
    rw [childrenOf, found]
    exact .nil
  | some node =>
    rw [childrenOf_eq found]
    exact tree.children_sorted id node found

theorem depth_of_extends (step : hierarchy.Extends lower upper) :
    hierarchy.depth lower = hierarchy.depth upper + 1 := by
  rw [depth, ancestors_of_extends tree.closed tree.acyclic step]
  rfl

theorem depth_le (below : Relation.ReflTransGen hierarchy.Extends lower upper) :
    hierarchy.depth upper ≤ hierarchy.depth lower := by
  induction below using Relation.ReflTransGen.head_induction_on with
  | refl => exact Nat.le_refl _
  | head step _ ih =>
    rw [tree.depth_of_extends step]
    omega

theorem depth_lt (below : hierarchy.Below lower upper) :
    hierarchy.depth upper < hierarchy.depth lower := by
  obtain ⟨middle, step, rest⟩ := Relation.TransGen.head'_iff.mp below
  rw [tree.depth_of_extends step]
  have := tree.depth_le rest
  omega

theorem depth_lt_size (inside : id < hierarchy.size) : hierarchy.depth id < hierarchy.size :=
  length_climb_lt tree.closed tree.acyclic hierarchy.size inside

theorem suffices_child (enough : hierarchy.Suffices (generations + 1) id)
    (step : hierarchy.Extends child id) : hierarchy.Suffices generations child := by
  refine ⟨lt_of_extends step, ?_⟩
  have bound := enough.bound
  rw [tree.depth_of_extends step]
  omega

theorem exists_generations (enough : hierarchy.Suffices generations id) :
    ∃ fewer, generations = fewer + 1 := by
  apply Nat.exists_eq_add_one.mpr
  have bound := enough.bound
  have less := tree.depth_lt_size enough.inside
  omega

theorem mem_preorder (enough : hierarchy.Suffices generations id) :
    lower ∈ hierarchy.preorder generations id ↔
      Relation.ReflTransGen hierarchy.Extends lower id := by
  induction generations generalizing id with
  | zero =>
    obtain ⟨fewer, same⟩ := tree.exists_generations enough
    contradiction
  | succ generations ih =>
    rw [preorder, List.mem_cons, List.mem_flatMap]
    constructor
    · rintro (rfl | ⟨child, isChild, inside⟩)
      · exact .refl
      · have step := tree.mem_childrenOf.mp isChild
        exact ((ih (tree.suffices_child enough step)).mp inside).tail step
    · intro below
      rcases Relation.ReflTransGen.cases_tail below with same | ⟨child, rest, step⟩
      · exact .inl same.symm
      · exact .inr ⟨child, tree.mem_childrenOf.mpr step,
          (ih (tree.suffices_child enough step)).mpr rest⟩

theorem not_below_child (step : hierarchy.Extends child id) :
    ¬ Relation.ReflTransGen hierarchy.Extends id child :=
  fun below => tree.acyclic id (Relation.TransGen.tail' below step)

theorem not_below_sibling {other : ClassId} (step : hierarchy.Extends child id)
    (again : hierarchy.Extends other id) (different : child ≠ other) :
    ¬ Relation.ReflTransGen hierarchy.Extends child other := by
  intro below
  rcases Relation.ReflTransGen.cases_head below with same | ⟨parent, up, rest⟩
  · exact different same
  · obtain rfl := extends_unique step up
    exact tree.not_below_child again rest

theorem not_below_both {other : ClassId} (step : hierarchy.Extends child id)
    (again : hierarchy.Extends other id) (different : child ≠ other)
    (below : Relation.ReflTransGen hierarchy.Extends lower child) :
    ¬ Relation.ReflTransGen hierarchy.Extends lower other := by
  intro belowOther
  rcases Relation.ReflTransGen.total_of_right_unique extends_unique below belowOther with
    down | down
  · exact tree.not_below_sibling step again different down
  · exact tree.not_below_sibling again step different.symm down

theorem eq_of_same_parent {other first second : ClassId} (step : hierarchy.Extends child id)
    (again : hierarchy.Extends other id) (different : child ≠ other)
    (below : Relation.ReflTransGen hierarchy.Extends first child)
    (belowOther : Relation.ReflTransGen hierarchy.Extends second other)
    (same : hierarchy.parentOf? first = hierarchy.parentOf? second) :
    first = child ∧ second = other := by
  rcases Relation.ReflTransGen.cases_head below with rfl | ⟨parent, up, rest⟩
  · rcases Relation.ReflTransGen.cases_head belowOther with rfl | ⟨parent, up, rest⟩
    · exact ⟨rfl, rfl⟩
    · obtain rfl := extends_unique step (same.trans up)
      exact absurd rest (tree.not_below_child again)
  · rcases Relation.ReflTransGen.cases_head belowOther with rfl | ⟨parent, upOther, restOther⟩
    · obtain rfl := extends_unique again (same.symm.trans up)
      exact absurd rest (tree.not_below_child step)
    · obtain rfl := extends_unique up (same.trans upOther)
      exact absurd restOther (tree.not_below_both step again different rest)

theorem siblings_preorder (enough : hierarchy.Suffices generations id) :
    (hierarchy.preorder generations id).Pairwise fun first second =>
      hierarchy.parentOf? first = hierarchy.parentOf? second → first < second := by
  induction generations generalizing id with
  | zero => exact .nil
  | succ generations ih =>
    rw [preorder, List.pairwise_cons, List.pairwise_flatMap]
    refine ⟨?_, ?_, ?_⟩
    · intro lower inside same
      obtain ⟨child, isChild, inside⟩ := List.mem_flatMap.mp inside
      have step := tree.mem_childrenOf.mp isChild
      have below := (tree.mem_preorder (tree.suffices_child enough step)).mp inside
      -- The parent of a class further down is the class itself or below it.
      obtain ⟨parent, up, rest⟩ :=
        Relation.TransGen.head'_iff.mp (Relation.TransGen.tail' below step)
      exact absurd rest (tree.not_below_child (same.trans up))
    · intro child isChild
      exact ih (tree.suffices_child enough (tree.mem_childrenOf.mp isChild))
    · apply (tree.childrenOf_sorted id).imp_of_mem
      intro child other isChild isOther less first inside second insideOther same
      have step := tree.mem_childrenOf.mp isChild
      have again := tree.mem_childrenOf.mp isOther
      have below := (tree.mem_preorder (tree.suffices_child enough step)).mp inside
      have belowOther := (tree.mem_preorder (tree.suffices_child enough again)).mp insideOther
      obtain ⟨rfl, rfl⟩ := tree.eq_of_same_parent step again less.ne below belowOther same
      exact less

theorem nodup_preorder (enough : hierarchy.Suffices generations id) :
    (hierarchy.preorder generations id).Nodup := by
  apply (tree.siblings_preorder enough).imp
  rintro first second ordered rfl
  exact Nat.lt_irrefl first (ordered rfl)

/-- A class and those below it are listed in one piece, and what follows is not further down. -/
theorem exists_block (enough : hierarchy.Suffices generations id)
    (below : Relation.ReflTransGen hierarchy.Extends lower id) :
    ∃ fewer before after, hierarchy.Suffices (fewer + 1) lower ∧
      hierarchy.preorder generations id = before ++ hierarchy.preorder (fewer + 1) lower ++ after ∧
      ∀ next ∈ after.head?, hierarchy.depth next ≤ hierarchy.depth lower := by
  induction generations generalizing id with
  | zero =>
    obtain ⟨fewer, same⟩ := tree.exists_generations enough
    contradiction
  | succ generations ih =>
    rcases Relation.ReflTransGen.cases_tail below with rfl | ⟨child, rest, step⟩
    · refine ⟨generations, [], [], enough, ?_, ?_⟩
      · rw [List.nil_append, List.append_nil]
      · intro next none
        contradiction
    · obtain ⟨fewer, before, after, fits, split, shallow⟩ :=
        ih (tree.suffices_child enough step) rest
      obtain ⟨earlier, later, children⟩ := List.append_of_mem (tree.mem_childrenOf.mpr step)
      refine ⟨fewer, id :: earlier.flatMap (hierarchy.preorder generations) ++ before,
        after ++ later.flatMap (hierarchy.preorder generations), fits, ?_, ?_⟩
      · rw [preorder, children, List.flatMap_append, List.flatMap_cons, split]
        simp only [List.append_assoc, List.cons_append]
      · intro next first
        rw [List.head?_append] at first
        cases after with
        | cons other after => exact shallow next first
        | nil =>
          -- What follows the last class below a child is the next child.
          cases later with
          | nil => contradiction
          | cons sibling later =>
            have isChild : sibling ∈ hierarchy.childrenOf id := by
              rw [children]
              exact List.mem_append_right _ (List.mem_cons_of_mem _ List.mem_cons_self)
            have again := tree.mem_childrenOf.mp isChild
            obtain ⟨more, rfl⟩ := tree.exists_generations (tree.suffices_child enough again)
            obtain rfl : sibling = next := Option.some.inj first
            have further := tree.depth_le rest
            rw [tree.depth_of_extends step] at further
            rw [tree.depth_of_extends again]
            exact further

theorem below_root {root : ClassId} (isRoot : hierarchy.root? = some root) :
    Relation.ReflTransGen hierarchy.Extends id root ↔ id < hierarchy.size := by
  constructor
  · intro below
    rcases Relation.ReflTransGen.cases_head below with rfl | ⟨parent, step, -⟩
    · exact idOf?_lt isRoot
    · exact lt_of_extends step
  · intro inside
    have last := tree.ends_at_root id inside
    have member := List.getLast_mem (List.cons_ne_nil id (hierarchy.ancestors id))
    rw [← Option.some.inj (isRoot.symm.trans last)] at member
    rcases List.mem_cons.mp member with rfl | above
    · exact .refl
    · exact ((mem_ancestors_iff tree.closed).mp above).to_reflTransGen

theorem lists_preorder {root : ClassId} (isRoot : hierarchy.root? = some root)
    (enough : hierarchy.Suffices generations root) :
    hierarchy.Lists (hierarchy.preorder generations root) where
  each_once := by
    apply (List.perm_ext_iff_of_nodup (tree.nodup_preorder enough) List.nodup_range).mpr
    intro id
    rw [tree.mem_preorder enough, tree.below_root isRoot, List.mem_range]
  block id node found := by
    have inRoot := (tree.below_root isRoot).mpr (node?_lt found)
    obtain ⟨fewer, before, after, fits, split, shallow⟩ := tree.exists_block enough inRoot
    obtain ⟨notItself, distinct⟩ := List.nodup_cons.mp (tree.nodup_preorder fits)
    have members (lower : ClassId) :
        lower ∈ (hierarchy.childrenOf id).flatMap (hierarchy.preorder fewer) ↔
          lower ≠ id ∧ hierarchy.isSubclass lower id = true := by
      rw [isSubclass_iff tree.closed, ← tree.mem_preorder fits, preorder, List.mem_cons]
      constructor
      · intro inside
        exact ⟨ne_of_mem_of_not_mem inside notItself, .inr inside⟩
      · rintro ⟨different, same | inside⟩
        · contradiction
        · exact inside
    refine ⟨before, _, after, ?_, members, ?_, shallow, ?_⟩
    · rw [split, preorder, List.append_assoc, List.cons_append]
    · intro lower inside
      obtain ⟨different, below⟩ := (members lower).mp inside
      rw [isSubclass_iff tree.closed] at below
      rcases Relation.reflTransGen_iff_eq_or_transGen.mp below with same | below
      · exact absurd same.symm different
      · exact tree.depth_lt below
    · rw [tree.descendants_eq id node found]
      apply List.Perm.length_eq
      apply (List.perm_ext_iff_of_nodup distinct (List.nodup_range.filter _)).mpr
      intro lower
      rw [members, List.mem_filter, List.mem_range, Bool.and_eq_true, bne_iff_ne]
      constructor
      · rintro ⟨different, below⟩
        refine ⟨?_, different, below⟩
        rw [isSubclass_iff tree.closed] at below
        exact (tree.below_root isRoot).mp (below.trans inRoot)
      · exact And.right
  siblings := tree.siblings_preorder enough

theorem outlineFrom_eq (enough : hierarchy.Suffices generations id) :
    hierarchy.outlineFrom (hierarchy.depth id) generations id =
      (hierarchy.preorder generations id).map hierarchy.line := by
  induction generations generalizing id with
  | zero => rfl
  | succ generations ih =>
    obtain ⟨node, found⟩ := exists_node enough.inside
    rw [preorder, List.map_cons, line_eq found, outlineFrom, found, List.map_flatMap]
    dsimp only
    rw [← childrenOf_eq found]
    apply congrArg (node.line (hierarchy.depth id) :: ·)
    apply List.flatMap_congr
    intro child isChild
    have step := tree.mem_childrenOf.mp isChild
    rw [← tree.depth_of_extends step, ih (tree.suffices_child enough step)]

theorem writes_preorder (enough : hierarchy.Suffices generations id) :
    hierarchy.Writes (hierarchy.depth id) id
      (String.join
        ((hierarchy.preorder generations id).map fun id => hierarchy.line id ++ "\n")) := by
  induction generations generalizing id with
  | zero =>
    obtain ⟨fewer, same⟩ := tree.exists_generations enough
    contradiction
  | succ generations ih =>
    obtain ⟨node, found⟩ := exists_node enough.inside
    have childrenOf := childrenOf_eq found
    have writesAll (children : List ClassId) (isChild : ∀ child ∈ children, child ∈ node.children) :
        hierarchy.WritesAll (hierarchy.depth id + 1) children
          (String.join ((children.flatMap (hierarchy.preorder generations)).map
            fun id => hierarchy.line id ++ "\n")) := by
      induction children with
      | nil => exact .nil
      | cons child rest others =>
        obtain ⟨first, later⟩ := List.forall_mem_cons.mp isChild
        have step := tree.mem_childrenOf.mp (childrenOf ▸ first)
        rw [List.flatMap_cons, List.map_append, String.join_append, ← tree.depth_of_extends step]
        refine .cons (ih (tree.suffices_child enough step)) ?_
        rw [tree.depth_of_extends step]
        exact others later
    rw [preorder, List.map_cons, String.join_cons, line_eq found, childrenOf]
    exact .node found (writesAll node.children fun _ member => member)

theorem depth_root {root : ClassId} (isRoot : hierarchy.root? = some root) :
    hierarchy.depth root = 0 := by
  rw [depth, ancestors_of_parentless, List.length_nil]
  cases isParent : hierarchy.parentOf? root with
  | none => rfl
  | some parent =>
    have below := (tree.below_root isRoot).mpr (tree.closed root parent isParent)
    exact absurd below (tree.not_below_child isParent)

theorem outline_eq {root : ClassId} (isRoot : hierarchy.root? = some root) :
    hierarchy.outline = String.join
      ((hierarchy.preorder hierarchy.size root).map fun id => hierarchy.line id ++ "\n") := by
  have lines := tree.outlineFrom_eq (suffices_root isRoot)
  rw [tree.depth_root isRoot] at lines
  rw [outline, outlineLines, isRoot]
  dsimp only
  rw [lines, List.map_map]
  rfl

/-- Without a bound the recursion ends, and what it has written is the outline. -/
theorem writes_iff {root : ClassId} (isRoot : hierarchy.root? = some root) (text : String) :
    hierarchy.Writes 0 root text ↔ text = hierarchy.outline := by
  have writes := tree.writes_preorder (suffices_root isRoot)
  rw [tree.depth_root isRoot, ← tree.outline_eq isRoot] at writes
  constructor
  · intro other
    exact other.unique writes
  · rintro rfl
    exact writes

end IsTree

theorem onOneLine_indentation (depth : Nat) :
    OnOneLine (String.join (List.replicate depth "  ")) := by
  induction depth with
  | zero => decide
  | succ depth ih =>
    rw [List.replicate_succ, String.join_cons, onOneLine_append]
    exact ⟨by decide, ih⟩

theorem onOneLine_caption {node : ClassNode} (named : OnOneLine node.name) :
    OnOneLine node.caption := by
  unfold ClassNode.caption
  rw [onOneLine_append, onOneLine_append]
  refine ⟨⟨named, ?_⟩, ?_⟩
  · split <;> decide
  · split
    · simp only [onOneLine_append, onOneLine_toString, Nat.toString_eq_repr, onOneLine_nat,
        and_true]
      decide
    · decide

theorem onOneLine_line (named : ∀ name ∈ hierarchy.names, OnOneLine name) (id : ClassId) :
    OnOneLine (hierarchy.line id) := by
  cases found : hierarchy.node? id with
  | none =>
    rw [line, found]
    exact (by decide : OnOneLine "")
  | some node =>
    rw [line_eq found, ClassNode.line, onOneLine_append]
    have member : node.name ∈ hierarchy.names :=
      List.mem_map_of_mem (List.mem_of_getElem? found)
    exact ⟨onOneLine_indentation _, onOneLine_caption (named _ member)⟩

theorem onOneLine_of_isWord {name : String} (isWord : IsWord name) : OnOneLine name := by
  intro member
  have part := isWord _ member
  contradiction

/-- The recursion that writes the outline of a program's classes ends. It lists them in an order of
which `Lists` tells, each on a line with two blanks for each of its ancestors. -/
theorem outline_lists_classes (program : Program) :
    ∃ root order, (ofProgram program).1.root? = some root ∧
      (∀ text, (ofProgram program).1.Writes 0 root text ↔
        text = (ofProgram program).1.outline) ∧
      (ofProgram program).1.Lists order ∧
      (ofProgram program).1.outline =
        String.join (order.map fun id => (ofProgram program).1.line id ++ "\n") ∧
      ((∀ name ∈ (ofProgram program).1.names, OnOneLine name) →
        linesOf (ofProgram program).1.outline = order.map (ofProgram program).1.line) ∧
      (∀ earlier files, (parseFiles earlier files).1 = .ok program →
        ∀ name ∈ (ofProgram program).1.names, OnOneLine name) := by
  have tree := isTree_ofProgram program
  obtain ⟨root, isRoot⟩ := tree.has_root
  have outline := tree.outline_eq isRoot
  refine ⟨root, _, isRoot, tree.writes_iff isRoot,
    tree.lists_preorder isRoot (suffices_root isRoot), outline, ?_, ?_⟩
  · intro named
    have rows := @linesOf_single_rows
      (((ofProgram program).1.preorder (ofProgram program).1.size root).map
        (ofProgram program).1.line)
    rw [List.map_map, List.forall_mem_map] at rows
    rw [outline]
    apply rows
    intro id _
    exact onOneLine_line named id
  · intro earlier files read name member
    exact onOneLine_of_isWord (namedByWords_ofProgram read name member)

end Hierarchy
end Bantam
