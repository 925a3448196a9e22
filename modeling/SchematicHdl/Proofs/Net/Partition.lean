import Mathlib.Logic.Relation
import SchematicHdl.Net.Partition

/-! Partitions stand for equivalences. Links never lead upward, so the representative of a class is
its least member; shortening a link changes no class, and a union merges two classes and touches no
other. A partition that starts discrete and takes unions therefore stands for the equivalence that
the united pairs generate.
-/

namespace SchematicHdl.Net.Partition

-----------------------------------------------------------------------------------------
-- Links
-----------------------------------------------------------------------------------------

/-- No link leads upward. -/
def Descending (partition : Partition) : Prop := ∀ x, partition.up x ≤ x

@[simp] theorem size_link (partition : Partition) (x target : Nat)
    : (partition.link x target).parent.size = partition.parent.size := by
  simp [link]

theorem up_link (partition : Partition) {x : Nat} (target y : Nat)
    (inside : x < partition.parent.size)
    : (partition.link x target).up y = if y = x then target else partition.up y := by
  by_cases same : y = x
  · subst same
    simp [up, link, Array.getD, inside]
  · have other : x ≠ y := fun h => same h.symm
    by_cases bound : y < partition.parent.size
    · simp [up, link, Array.getD, bound, same, other]
    · simp [up, link, Array.getD, bound, same]

/-- Outside the forest there is no link to change. -/
theorem link_outside {partition : Partition} {x : Nat} (target : Nat)
    (outside : partition.parent.size ≤ x)
    : partition.link x target = partition := by
  simp [link, Array.setIfInBounds, Nat.not_lt.mpr outside]

theorem up_discrete (size x : Nat) : (discrete size).up x = x := by
  by_cases bound : x < size <;> simp [up, discrete, Array.getD, bound]

theorem Descending.link {partition : Partition} (descending : partition.Descending)
    {x target : Nat} (lower : target ≤ x)
    : (partition.link x target).Descending := by
  intro y
  by_cases inside : x < partition.parent.size
  · rw [up_link partition target y inside]
    split
    · next same => exact same ▸ lower
    · exact descending y
  · rw [link_outside target (Nat.le_of_not_lt inside)]
    exact descending y

-----------------------------------------------------------------------------------------
-- Representatives
-----------------------------------------------------------------------------------------

theorem classOf_le (partition : Partition) (x : Nat) : partition.classOf x ≤ x := by
  fun_induction partition.classOf x with
  | case1 x above lower ih => omega
  | case2 x above root => exact Nat.le_refl x

/-- A number is represented like the number that its link leads to. -/
theorem Descending.classOf_up {partition : Partition} (descending : partition.Descending)
    (x : Nat)
    : partition.classOf (partition.up x) = partition.classOf x := by
  conv => rhs; rw [classOf]
  split
  · rfl
  · next root =>
      have fixed : partition.up x = x := by have := descending x; omega
      rw [fixed, classOf]
      simp [fixed]

theorem classOf_of_up_eq {partition : Partition} {x : Nat} (root : partition.up x = x)
    : partition.classOf x = x := by
  rw [classOf]
  simp [root]

theorem Descending.up_classOf {partition : Partition} (descending : partition.Descending)
    (x : Nat)
    : partition.up (partition.classOf x) = partition.classOf x := by
  fun_induction partition.classOf x with
  | case1 x above lower ih => exact ih
  | case2 x above root =>
      have := descending x
      omega

theorem Descending.classOf_classOf {partition : Partition}
    (descending : partition.Descending) (x : Nat)
    : partition.classOf (partition.classOf x) = partition.classOf x :=
  classOf_of_up_eq (descending.up_classOf x)

/-- A link that leads down to a member of the same class may take the place of the old one, by
strong induction: the walk from any number meets the new link at most once.
-/
theorem Descending.classOf_link {partition : Partition} (descending : partition.Descending)
    {x target : Nat} (lower : target ≤ x)
    (same : partition.classOf target = partition.classOf x)
    (proper : target = x → partition.up x = x) (y : Nat)
    : (partition.link x target).classOf y = partition.classOf y := by
  rcases Nat.lt_or_ge x partition.parent.size with inside | outside
  case inr => rw [link_outside target outside]
  induction y using Nat.strongRecOn with
  | _ y ih =>
      have step := (descending.link lower).classOf_up y
      rw [← step, up_link partition target y inside]
      split
      · next atX =>
          subst atX
          rcases Nat.lt_or_ge target y with below | above
          · rw [ih target below, same]
          · have fixed : target = y := by omega
            subst fixed
            rw [classOf_of_up_eq (by rw [up_link partition _ _ inside]; simp)]
            exact (classOf_of_up_eq (proper rfl)).symm
      · next other =>
          have le := descending y
          rcases Nat.lt_or_ge (partition.up y) y with below | above
          · rw [ih _ below, descending.classOf_up]
          · have fixed : partition.up y = y := by omega
            rw [fixed, classOf_of_up_eq fixed]
            exact classOf_of_up_eq (by rw [up_link partition _ _ inside]; simp [other, fixed])

-----------------------------------------------------------------------------------------
-- Shortening walks
-----------------------------------------------------------------------------------------

/-- What a walk that shortens links gives back, and what it leaves as it was. -/
structure FindSpec (before : Partition) (x : Nat) (result : Partition × Nat) : Prop where
  representative : result.2 = before.classOf x
  descending : result.1.Descending
  size_eq : result.1.parent.size = before.parent.size
  classOf_eq : ∀ y, result.1.classOf y = before.classOf y

/-- The walk ends at the representative and keeps every class. -/
theorem Descending.find_spec {partition : Partition} (descending : partition.Descending)
    (x : Nat)
    : FindSpec partition x (partition.find x) := by
  fun_induction partition.find x with
  | case1 partition x above lower ih =>
      have le : above ≤ x := Nat.le_of_lt lower
      have same : partition.classOf above = partition.classOf x := by
        rw [descending.classOf_up, descending.classOf_up]
      have kept :=
        descending.classOf_link le same (fun fixed => absurd fixed (Nat.ne_of_lt lower))
      have found := ih (descending.link le)
      exact {
        representative := by rw [found.representative, kept, same]
        descending := found.descending
        size_eq := by rw [found.size_eq, size_link]
        classOf_eq := fun y => by rw [found.classOf_eq, kept]
      }
  | case2 partition x above root =>
      have first := descending x
      have second := descending (partition.up x)
      exact {
        representative := (classOf_of_up_eq (by show partition.up x = x; omega)).symm
        descending
        size_eq := rfl
        classOf_eq := fun _ => rfl
      }

-----------------------------------------------------------------------------------------
-- Unions
-----------------------------------------------------------------------------------------

/-- Linking one representative below a lesser one merges their two classes only. -/
theorem Descending.classOf_link_root {partition : Partition}
    (descending : partition.Descending) {root target : Nat} (lower : target < root)
    (inside : root < partition.parent.size) (isRoot : partition.up root = root)
    (isTarget : partition.up target = target) (y : Nat)
    : (partition.link root target).classOf y
      = if partition.classOf y = root then target else partition.classOf y := by
  have linked := descending.link (Nat.le_of_lt lower)
  have atTarget : (partition.link root target).classOf target = target :=
    classOf_of_up_eq (by rw [up_link partition _ _ inside]; simp [isTarget])
  induction y using Nat.strongRecOn with
  | _ y ih =>
      rw [← linked.classOf_up y, up_link partition target y inside]
      split
      · next atRoot =>
          rw [atTarget, atRoot, classOf_of_up_eq isRoot, if_pos rfl]
      · next other =>
          have le := descending y
          rcases Nat.lt_or_ge (partition.up y) y with below | above
          · rw [ih _ below, descending.classOf_up]
          · have fixed : partition.up y = y := by omega
            have stays : (partition.link root target).up y = y := by
              rw [up_link partition _ _ inside]
              simp [other, fixed]
            rw [fixed, classOf_of_up_eq stays, classOf_of_up_eq fixed, if_neg other]

/-- What a union leaves behind: the merged class is represented by the lesser of the two
representatives, and every other number keeps its own.
-/
structure UnionSpec (before : Partition) (a b : Nat) (after : Partition) : Prop where
  descending : after.Descending
  size_eq : after.parent.size = before.parent.size
  classOf_eq
    : ∀ y,
        after.classOf y
        = if before.classOf y = before.classOf a ∨ before.classOf y = before.classOf b then
            min (before.classOf a) (before.classOf b)
          else before.classOf y

/-- Two numbers are in one class after a union if they were before, or if each of them was in one of
the two merged classes.
-/
theorem UnionSpec.classOf_eq_iff {before after : Partition} {a b : Nat}
    (merged : UnionSpec before a b after) {x y : Nat}
    : after.classOf x = after.classOf y
      ↔ before.classOf x = before.classOf y
        ∨ (before.classOf x = before.classOf a ∨ before.classOf x = before.classOf b)
          ∧ (before.classOf y = before.classOf a ∨ before.classOf y = before.classOf b) := by
  rw [merged.classOf_eq, merged.classOf_eq]
  split <;> split <;> omega

theorem Descending.union_spec {partition : Partition} (descending : partition.Descending)
    {a b : Nat} (insideA : a < partition.parent.size) (insideB : b < partition.parent.size)
    : UnionSpec partition a b (partition.union a b) := by
  have first := descending.find_spec a
  have second := first.descending.find_spec b
  rw [union]
  generalize partition.find a = foundA at first second
  obtain ⟨partitionA, rootA⟩ := foundA
  simp only at first second ⊢
  generalize partitionA.find b = foundB at second
  obtain ⟨partitionB, rootB⟩ := foundB
  simp only at second ⊢
  have classes (y : Nat) : partitionB.classOf y = partition.classOf y := by
    rw [second.classOf_eq, first.classOf_eq]
  have size : partitionB.parent.size = partition.parent.size := by
    rw [second.size_eq, first.size_eq]
  have isA : rootA = partition.classOf a := first.representative
  have isB : rootB = partition.classOf b := by
    have := second.representative
    simpa only [first.classOf_eq] using this
  have rootedA : partitionB.up rootA = rootA := by
    rw [isA, ← classes]
    exact second.descending.up_classOf a
  have rootedB : partitionB.up rootB = rootB := by
    rw [isB, ← classes]
    exact second.descending.up_classOf b
  have leA := partition.classOf_le a
  have leB := partition.classOf_le b
  split
  · next less =>
      refine ⟨second.descending.link (Nat.le_of_lt less), by simp [size], fun y => ?_⟩
      rw [second.descending.classOf_link_root less (size ▸ by omega) rootedB rootedA, classes, isA,
        isB]
      grind
  split
  · next _ less =>
      refine ⟨second.descending.link (Nat.le_of_lt less), by simp [size], fun y => ?_⟩
      rw [second.descending.classOf_link_root less (size ▸ by omega) rootedA rootedB, classes, isA,
        isB]
      grind
  · refine ⟨second.descending, size, fun y => ?_⟩
    rw [classes]
    grind

-----------------------------------------------------------------------------------------
-- The equivalence of a partition
-----------------------------------------------------------------------------------------

/-- The partition puts two members into one class just when a chain of pairs of `pairs` leads from
one to the other. Members are known by their numbers.
-/
structure Represents {α : Type} (partition : Partition) (member : α → Prop) (number : α → Nat)
    (pairs : α → α → Prop)
    : Prop where
  descending : partition.Descending
  inside : ∀ x, member x → number x < partition.parent.size
  closed : ∀ x y, pairs x y → member x ∧ member y
  same_iff
    : ∀ x y,
        member x
        → member y
        → (partition.classOf (number x) = partition.classOf (number y)
          ↔ Relation.EqvGen pairs x y)

variable {α : Type} {partition : Partition} {member : α → Prop} {number : α → Nat}
  {pairs : α → α → Prop}

/-- A chain of pairs of members leads from a member to a member, unless it is empty, and any
assignment that agrees on the pairs agrees on its two ends.
-/
theorem eqvGen_value {β : Type} (closed : ∀ x y, pairs x y → member x ∧ member y)
    (value : α → β) (agrees : ∀ x y, pairs x y → value x = value y) {x y : α}
    (chain : Relation.EqvGen pairs x y)
    : (member x ↔ member y) ∧ value x = value y := by
  induction chain with
  | rel x y pair => exact ⟨by simp [closed x y pair], agrees x y pair⟩
  | refl x => exact ⟨Iff.rfl, rfl⟩
  | symm x y _ ih => exact ⟨ih.1.symm, ih.2.symm⟩
  | trans x y z _ _ first second => exact ⟨first.1.trans second.1, first.2.trans second.2⟩

/-- Without pairs every member is alone. -/
theorem Represents.discrete (size : Nat) (inside : ∀ x, member x → number x < size)
    (injective : ∀ x y, member x → member y → number x = number y → x = y)
    : (Partition.discrete size).Represents member number (fun _ _ => False) where
  descending := fun x => Nat.le_of_eq (up_discrete size x)
  inside := by simpa [Partition.discrete] using inside
  closed := fun _ _ none => none.elim
  same_iff := by
    intro x y memberX memberY
    rw [classOf_of_up_eq (up_discrete size _), classOf_of_up_eq (up_discrete size _)]
    constructor
    · intro same
      exact injective x y memberX memberY same ▸ Relation.EqvGen.refl x
    · intro chain
      have none : ∀ x y, False → member x ∧ member y := fun _ _ none => none.elim
      exact congrArg number (eqvGen_value none id (fun _ _ none => none.elim) chain).2

/-- A union adds one pair. -/
theorem Represents.union (represents : partition.Represents member number pairs) {a b : α}
    (memberA : member a) (memberB : member b)
    : (partition.union (number a) (number b)).Represents member number
        (fun x y => pairs x y ∨ (x = a ∧ y = b)) := by
  have merged :=
    represents.descending.union_spec (represents.inside a memberA) (represents.inside b memberB)
  have closed : ∀ x y, (pairs x y ∨ (x = a ∧ y = b)) → member x ∧ member y := by
    rintro x y (pair | ⟨rfl, rfl⟩)
    · exact represents.closed x y pair
    · exact ⟨memberA, memberB⟩
  have widen {x y} (chain : Relation.EqvGen pairs x y)
      : Relation.EqvGen (fun x y => pairs x y ∨ (x = a ∧ y = b)) x y :=
    chain.mono (fun _ _ pair => Or.inl pair)
  have bridge : Relation.EqvGen (fun x y => pairs x y ∨ (x = a ∧ y = b)) a b :=
    .rel _ _ (Or.inr ⟨rfl, rfl⟩)
  refine {
    descending := merged.descending
    inside := fun x memberX => merged.size_eq ▸ represents.inside x memberX
    closed
    same_iff := ?_
  }
  have reach {z} (memberZ : member z)
      (joined
        : partition.classOf (number z) = partition.classOf (number a)
          ∨ partition.classOf (number z) = partition.classOf (number b))
      : Relation.EqvGen (fun x y => pairs x y ∨ (x = a ∧ y = b)) z a := by
    rcases joined with same | same
    · exact widen ((represents.same_iff z a memberZ memberA).1 same)
    · exact .trans _ _ _ (widen ((represents.same_iff z b memberZ memberB).1 same))
        (.symm _ _ bridge)
  intro x y memberX memberY
  constructor
  · intro same
    rcases merged.classOf_eq_iff.1 same with before | ⟨joinedX, joinedY⟩
    · exact widen ((represents.same_iff x y memberX memberY).1 before)
    · exact .trans _ _ _ (reach memberX joinedX) (.symm _ _ (reach memberY joinedY))
  · intro chain
    refine (eqvGen_value closed
      (fun z => (partition.union (number a) (number b)).classOf (number z)) ?_ chain).2
    rintro z w (pair | ⟨rfl, rfl⟩)
    · have ⟨memberZ, memberW⟩ := represents.closed z w pair
      have same := (represents.same_iff z w memberZ memberW).2 (.rel _ _ pair)
      exact merged.classOf_eq_iff.2 (.inl same)
    · exact merged.classOf_eq_iff.2 (.inr ⟨.inl rfl, .inr rfl⟩)

/-- Only the pairs as a set matter. -/
theorem Represents.congr (represents : partition.Represents member number pairs)
    {others : α → α → Prop} (same : ∀ x y, pairs x y ↔ others x y)
    : partition.Represents member number others := by
  have eq : pairs = others := by
    funext x y
    exact propext (same x y)
  exact eq ▸ represents

end SchematicHdl.Net.Partition
