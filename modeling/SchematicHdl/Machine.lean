/-! The machine of a run: what the run owes to its build and to chance instead of its input. A build
ends a run whose arithmetic leaves a machine word, or it lets the result wrap around. A hash map
lists its entries in an order of its own in each run.
-/

namespace SchematicHdl

/-- What a build does about arithmetic that leaves its word. -/
class Arithmetic where
  /-- It ends the run. In a build without these checks the result wraps around. -/
  checksOverflow : Bool

/-- A build, and the hash order of one run. -/
class Machine extends Arithmetic where
  /-- The order in which the clock trees that are handed down to the pins of a circuit come out of
  their hash map. Each entry is a pin and a tree. -/
  arrange (circuit : Nat) (clocks : List (Nat × Nat)) : List (Nat × Nat)
  arrange_perm
    : ∀ (circuit : Nat) (clocks : List (Nat × Nat)), (arrange circuit clocks).Perm clocks

/-- An optimized build, in a run whose hash maps list their entries last to first. -/
instance Machine.optimized : Machine where
  checksOverflow := false
  arrange _ clocks := clocks.reverse
  arrange_perm _ clocks := clocks.reverse_perm

/-- Arithmetic whose result does not fit its word. -/
inductive Overflow where
  | add
  | subtract
  | shiftLeft
deriving DecidableEq, Repr

/-- What a build with overflow checks says when it ends the run. -/
def Overflow.message : Overflow → String
  | .add => "attempt to add with overflow"
  | .subtract => "attempt to subtract with overflow"
  | .shiftLeft => "attempt to shift left with overflow"

namespace Word

/-- Number of values of a 32-bit word. -/
def size : Nat := 4294967296

/-- Bits of the word that the number of ends of a component is counted in. -/
def longBits : Nat := 64

/-- The sum of two words. -/
def add [Arithmetic] (a b : Nat) : Except Overflow Nat :=
  if Arithmetic.checksOverflow && size ≤ a + b then .error .add else .ok ((a + b) % size)

/-- The difference of two words. -/
def subtract [Arithmetic] (a b : Nat) : Except Overflow Nat :=
  if Arithmetic.checksOverflow && a < b then .error .subtract else .ok ((a + size - b) % size)

/-- A power of two in a long word: a one, shifted left. Without overflow checks the places count
modulo the bits of the word. -/
def power [Arithmetic] (places : Nat) : Except Overflow Nat :=
  if Arithmetic.checksOverflow && longBits ≤ places then .error .shiftLeft
  else .ok (Nat.pow 2 (places % longBits))

end Word

end SchematicHdl
