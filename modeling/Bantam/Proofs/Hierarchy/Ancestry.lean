import Bantam.Hierarchy.Basic
import Mathlib.Data.Fintype.Pigeonhole
import Mathlib.Data.List.Chain
import Mathlib.Data.List.Perm.Subperm
import Mathlib.Logic.Relation

/-! Ancestry as a relation. Parent links are single steps, and being below another class is any
number of them. The bounded walk of a hierarchy finds exactly the classes above its start, because
a walk through more steps than there are classes comes twice to one of them. -/
namespace Bantam.Hierarchy
open Relation

/-- The parent of the lower class is the upper one. -/
def Extends (hierarchy : Hierarchy) (lower upper : ClassId) : Prop :=
  hierarchy.parentOf? lower = some upper

/-- One or more steps lead up from the lower class to the upper one. -/
def Below (hierarchy : Hierarchy) : ClassId → ClassId → Prop := TransGen hierarchy.Extends

def Closed (hierarchy : Hierarchy) : Prop :=
  ∀ lower upper, hierarchy.Extends lower upper → upper < hierarchy.size

def Acyclic (hierarchy : Hierarchy) : Prop := ∀ id, ¬ hierarchy.Below id id

def walk (hierarchy : Hierarchy) : Nat → ClassId → Option ClassId
  | 0, id => some id
  | steps + 1, id => (hierarchy.parentOf? id).bind (hierarchy.walk steps)

variable {hierarchy : Hierarchy} {lower upper : ClassId}

theorem extends_unique : Relator.RightUnique hierarchy.Extends := by
  intro lower first second left right
  exact Option.some.inj (left.symm.trans right)

@[simp] theorem walk_one : hierarchy.walk 1 lower = hierarchy.parentOf? lower := by
  rw [walk]
  cases hierarchy.parentOf? lower <;> rfl

theorem walk_add (first second : Nat) :
    hierarchy.walk (first + second) lower =
      (hierarchy.walk first lower).bind (hierarchy.walk second) := by
  induction first generalizing lower with
  | zero => simp [walk]
  | succ first ih =>
    rw [Nat.succ_add, walk, walk]
    cases hierarchy.parentOf? lower with
    | none => rfl
    | some parent => exact ih

theorem walk_lt (closed : hierarchy.Closed) (steps : Nat)
    (found : hierarchy.walk (steps + 1) lower = some upper) : upper < hierarchy.size := by
  induction steps generalizing lower with
  | zero =>
    rw [walk_one] at found
    exact closed lower upper found
  | succ steps ih =>
    obtain ⟨parent, -, rest⟩ := Option.bind_eq_some_iff.mp found
    exact ih rest

theorem below_iff_walk :
    hierarchy.Below lower upper ↔ ∃ steps, hierarchy.walk (steps + 1) lower = some upper := by
  constructor
  · intro below
    induction below with
    | single step => exact ⟨0, walk_one.trans step⟩
    | @tail middle upper _ step ih =>
      obtain ⟨steps, found⟩ := ih
      refine ⟨steps + 1, ?_⟩
      rw [walk_add (steps + 1) 1, found]
      exact walk_one.trans step
  · rintro ⟨steps, found⟩
    induction steps generalizing lower with
    | zero => exact .single (walk_one.symm.trans found)
    | succ steps ih =>
      obtain ⟨parent, isParent, rest⟩ := Option.bind_eq_some_iff.mp found
      exact .head isParent (ih rest)

theorem mem_climb_iff (steps : Nat) (start : Option ClassId) :
    upper ∈ hierarchy.climb steps start ↔
      ∃ taken < steps, start.bind (hierarchy.walk taken) = some upper := by
  induction steps generalizing start with
  | zero => cases start <;> simp [climb]
  | succ steps ih =>
    cases start with
    | none => simp [climb]
    | some id =>
      rw [climb, List.mem_cons, ih]
      constructor
      · rintro (rfl | ⟨taken, bound, found⟩)
        · exact ⟨0, by omega, rfl⟩
        · exact ⟨taken + 1, by omega, found⟩
      · rintro ⟨taken, bound, found⟩
        cases taken with
        | zero => exact .inl (Option.some.inj found).symm
        | succ taken => exact .inr ⟨taken, by omega, found⟩

/-- A class that can be reached can be reached in no more steps than there are classes: on a
shortest walk no class comes twice. -/
theorem walk_bounded (closed : hierarchy.Closed) (below : hierarchy.Below lower upper) :
    ∃ steps < hierarchy.size, hierarchy.walk (steps + 1) lower = some upper := by
  classical
  have reached := below_iff_walk.mp below
  have found := Nat.find_spec reached
  have least := fun steps => Nat.find_min reached (m := steps)
  generalize Nat.find reached = steps at found least
  refine ⟨steps, ?_, found⟩
  by_contra tooLong
  have stop (taken : Fin (steps + 1)) :
      ∃ id : Fin hierarchy.size, hierarchy.walk (taken + 1) lower = some id.val := by
    have split : steps + 1 = (taken.val + 1) + (steps - taken.val) := by omega
    rw [split, walk_add, Option.bind_eq_some_iff] at found
    obtain ⟨id, here, -⟩ := found
    exact ⟨⟨id, walk_lt closed taken here⟩, here⟩
  choose visited visits using stop
  obtain ⟨early, late, different, same⟩ :=
    Fintype.exists_ne_map_eq_of_card_lt visited (by simp; omega)
  wlog ordered : early < late generalizing early late
  · exact this late early different.symm same.symm (by omega)
  -- Between the two visits the walk went in a circle, which can be left out.
  have shortcut : hierarchy.walk (early + (steps - late) + 1) lower = some upper := by
    have around : steps + 1 = (late.val + 1) + (steps - late.val) := by omega
    rw [around, walk_add, visits late, ← same, ← visits early, ← walk_add] at found
    rw [← found]
    congr 1
    omega
  exact least (early + (steps - late)) (by omega) shortcut

theorem mem_ancestors_iff (closed : hierarchy.Closed) :
    upper ∈ hierarchy.ancestors lower ↔ hierarchy.Below lower upper := by
  rw [ancestors, mem_climb_iff]
  constructor
  · rintro ⟨taken, -, found⟩
    exact below_iff_walk.mpr ⟨taken, found⟩
  · intro below
    obtain ⟨steps, bound, found⟩ := walk_bounded closed below
    exact ⟨steps, bound, found⟩

theorem lt_of_mem_ancestors (closed : hierarchy.Closed)
    (above : upper ∈ hierarchy.ancestors lower) : upper < hierarchy.size := by
  obtain ⟨middle, -, step⟩ := TransGen.tail'_iff.mp ((mem_ancestors_iff closed).mp above)
  exact closed middle upper step

theorem isSubclass_iff (closed : hierarchy.Closed) :
    hierarchy.isSubclass lower upper = true ↔ ReflTransGen hierarchy.Extends lower upper := by
  rw [isSubclass, Bool.or_eq_true, beq_iff_eq, List.contains_iff_mem, mem_ancestors_iff closed,
    reflTransGen_iff_eq_or_transGen, eq_comm]
  rfl

theorem isSubclass_refl (id : ClassId) : hierarchy.isSubclass id id = true := by
  simp [isSubclass]

theorem isSubclass_trans (closed : hierarchy.Closed) {middle : ClassId}
    (first : hierarchy.isSubclass lower middle = true)
    (second : hierarchy.isSubclass middle upper = true) :
    hierarchy.isSubclass lower upper = true := by
  rw [isSubclass_iff closed] at *
  exact first.trans second

/-- Parents are unique, so of two classes above a third one is above the other. -/
theorem isSubclass_total (closed : hierarchy.Closed) {first second : ClassId}
    (left : hierarchy.isSubclass lower first = true)
    (right : hierarchy.isSubclass lower second = true) :
    hierarchy.isSubclass first second = true ∨ hierarchy.isSubclass second first = true := by
  rw [isSubclass_iff closed] at *
  rw [isSubclass_iff closed]
  exact ReflTransGen.total_of_right_unique extends_unique left right

theorem lt_of_extends (step : hierarchy.Extends lower upper) : lower < hierarchy.size := by
  obtain ⟨node, found, -⟩ := Option.bind_eq_some_iff.mp step
  exact (List.getElem?_eq_some_iff.mp found).1

theorem ancestors_of_parentless (parentless : hierarchy.parentOf? lower = none) :
    hierarchy.ancestors lower = [] := by
  rw [ancestors, parentless]
  cases hierarchy.size <;> rfl

/-- A walk that ends early takes no notice of one step more. -/
theorem climb_succ {steps : Nat} {start : Option ClassId}
    (short : (hierarchy.climb steps start).length < steps) :
    hierarchy.climb (steps + 1) start = hierarchy.climb steps start := by
  induction steps generalizing start with
  | zero => omega
  | succ steps ih =>
    cases start with
    | none => rfl
    | some id =>
      rw [climb, List.length_cons] at short
      rw [climb, climb, ih (by omega)]

theorem ancestors_congr {left right : Hierarchy} (size : left.size = right.size)
    (parents : ∀ id, left.parentOf? id = right.parentOf? id) (id : ClassId) :
    left.ancestors id = right.ancestors id := by
  have climbs (steps : Nat) (start : Option ClassId) :
      left.climb steps start = right.climb steps start := by
    induction steps generalizing start with
    | zero => cases start <;> rfl
    | succ steps ih =>
      cases start with
      | none => rfl
      | some id => rw [climb, climb, parents, ih]
  rw [ancestors, ancestors, size, parents, climbs]

section Tree
variable (closed : hierarchy.Closed) (acyclic : hierarchy.Acyclic)
include acyclic

theorem not_below_symm (down : hierarchy.Below lower upper) : ¬ hierarchy.Below upper lower :=
  fun up => acyclic lower (down.trans up)

theorem nodup_climb (steps : Nat) (id : ClassId) :
    (id :: hierarchy.climb steps (hierarchy.parentOf? id)).Nodup := by
  induction steps generalizing id with
  | zero => cases hierarchy.parentOf? id <;> simp [climb]
  | succ steps ih =>
    cases isParent : hierarchy.parentOf? id with
    | none => simp [climb]
    | some parent =>
      refine List.nodup_cons.mpr ⟨?_, ih parent⟩
      intro again
      obtain ⟨taken, -, found⟩ := (mem_climb_iff _ _).mp again
      have circle : hierarchy.walk (taken + 1) id = some id := by rw [walk, isParent]; exact found
      exact acyclic id (below_iff_walk.mpr ⟨taken, circle⟩)

theorem nodup_ancestors (id : ClassId) : (id :: hierarchy.ancestors id).Nodup :=
  nodup_climb acyclic hierarchy.size id

include closed

theorem length_climb_lt (steps : Nat) {id : ClassId} (inside : id < hierarchy.size) :
    (hierarchy.climb steps (hierarchy.parentOf? id)).length < hierarchy.size := by
  have bound : ∀ visited ∈ id :: hierarchy.climb steps (hierarchy.parentOf? id),
      visited ∈ List.range hierarchy.size := by
    intro visited member
    rcases List.mem_cons.mp member with rfl | above
    · exact List.mem_range.mpr inside
    · obtain ⟨taken, -, found⟩ := (mem_climb_iff _ _).mp above
      exact List.mem_range.mpr (walk_lt closed taken found)
  have fits := ((nodup_climb acyclic steps id).subperm bound).length_le
  rw [List.length_cons, List.length_range] at fits
  omega

theorem climb_succ_of_extends {steps : Nat} (step : hierarchy.Extends lower upper)
    (size : hierarchy.size = steps + 1) :
    hierarchy.climb (steps + 1) (hierarchy.parentOf? upper) =
      hierarchy.climb steps (hierarchy.parentOf? upper) := by
  have short := length_climb_lt closed acyclic (steps + 1) (lt_of_extends step)
  rw [step, climb, List.length_cons, size] at short
  exact climb_succ (by omega)

theorem ancestors_of_extends (step : hierarchy.Extends lower upper) :
    hierarchy.ancestors lower = upper :: hierarchy.ancestors upper := by
  obtain ⟨steps, size⟩ : ∃ steps, hierarchy.size = steps + 1 :=
    Nat.exists_eq_add_one.mpr (Nat.zero_lt_of_lt (closed lower upper step))
  rw [ancestors, ancestors, step, size, climb,
    climb_succ_of_extends closed acyclic step size]

theorem wellFounded_extends : WellFounded fun upper lower => hierarchy.Extends lower upper := by
  apply Subrelation.wf _ (measure fun id => (hierarchy.ancestors id).length).wf
  intro upper lower step
  show (hierarchy.ancestors upper).length < (hierarchy.ancestors lower).length
  rw [ancestors_of_extends closed acyclic step, List.length_cons]
  omega

theorem isChain_ancestors (id : ClassId) :
    List.IsChain hierarchy.Extends (id :: hierarchy.ancestors id) := by
  induction id using (wellFounded_extends closed acyclic).induction with
  | _ id ih =>
    cases isParent : hierarchy.parentOf? id with
    | none => rw [ancestors_of_parentless isParent]; exact .singleton id
    | some parent =>
      rw [ancestors_of_extends closed acyclic isParent]
      exact .cons_cons isParent (ih parent isParent)

theorem parentOf?_last (id : ClassId) :
    hierarchy.parentOf? ((id :: hierarchy.ancestors id).getLast (List.cons_ne_nil _ _)) = none := by
  induction id using (wellFounded_extends closed acyclic).induction with
  | _ id ih =>
    cases isParent : hierarchy.parentOf? id with
    | none => simpa [ancestors_of_parentless isParent] using isParent
    | some parent =>
      simpa [ancestors_of_extends closed acyclic isParent] using ih parent isParent

theorem isSubclass_antisymm (up : hierarchy.isSubclass lower upper = true)
    (down : hierarchy.isSubclass upper lower = true) : lower = upper := by
  rw [isSubclass_iff closed, reflTransGen_iff_eq_or_transGen] at up down
  rcases up with same | above
  · exact same.symm
  · rcases down with same | below
    · exact same
    · exact absurd below (not_below_symm acyclic above)

end Tree

end Bantam.Hierarchy
