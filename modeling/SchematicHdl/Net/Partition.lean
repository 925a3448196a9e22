/-! Partitions of the numbers below a bound into classes, kept as a forest of parent links. A link
never leads upward, so every class is represented by its least member and a walk along the links
ends.
-/

namespace SchematicHdl.Net

/-- A forest over the numbers below the size of `parent`. A number outside stands alone. -/
structure Partition where
  parent : Array Nat
deriving Repr

namespace Partition

/-- Every number in a class of its own. -/
def discrete (size : Nat) : Partition := ⟨Array.range size⟩

/-- The next number on the way to the representative. -/
def up (partition : Partition) (x : Nat) : Nat := partition.parent.getD x x

def link (partition : Partition) (x target : Nat) : Partition :=
  ⟨partition.parent.setIfInBounds x target⟩

/-- The representative of a number, with every other link on the way shortened to skip one
step.
-/
def find (partition : Partition) (x : Nat) : Partition × Nat :=
  let above := partition.up (partition.up x)
  if above < x then
    (partition.link x above).find above
  else
    (partition, x)
termination_by x

/-- Merges two classes. The lesser representative stays, so the result does not depend on the
order of merges.
-/
def union (partition : Partition) (a b : Nat) : Partition :=
  let (partition, a) := partition.find a
  let (partition, b) := partition.find b
  if a < b then partition.link b a
  else if b < a then partition.link a b
  else partition

/-- The representative of a number, by a walk that changes nothing. -/
def classOf (partition : Partition) (x : Nat) : Nat :=
  let above := partition.up x
  if above < x then partition.classOf above else x
termination_by x

end Partition

end SchematicHdl.Net
