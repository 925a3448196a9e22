import SchematicHdl.Direction
import SchematicHdl.Failure

/-! Bubbles: the three flat boundary busses of a circuit that carry the pins nothing inside the
circuit is connected to. A circuit reserves a contiguous range for each of its own bubbles and one
range per bus for each circuit that it instantiates. The bus of a bubble is named by the direction
of its pin.
-/

namespace SchematicHdl

/-- Name of a bubble bus. -/
def bubblePort : Direction → String
  | .input => "LOGISIM_INPUT_BUBBLES"
  | .output => "LOGISIM_OUTPUT_BUBBLES"
  | .inout => "LOGISIM_INOUT_BUBBLES"

/-- Indices of a bubble bus, both bounds included. They are words, like the counts of bubbles. -/
structure BubbleRange where
  first : Nat
  last : Nat
deriving DecidableEq, Repr

/-- The number of indices, as a word: a range that wraps around counts from its first index on. -/
def BubbleRange.length (range : BubbleRange) : Nat :=
  (range.last + Word.size - range.first + 1) % Word.size

/-- One value for each bubble bus. -/
structure PerBus (α : Type) where
  input : α
  output : α
  inout : α
deriving DecidableEq, Repr

namespace PerBus

def get {α : Type} (values : PerBus α) : Direction → α
  | .input => values.input
  | .output => values.output
  | .inout => values.inout

def set {α : Type} (values : PerBus α) (bus : Direction) (value : α) : PerBus α :=
  match bus with
  | .input => { values with input := value }
  | .output => { values with output := value }
  | .inout => { values with inout := value }

def toList {α : Type} (values : PerBus α) : List α :=
  [values.input, values.output, values.inout]

end PerBus

/-- Widths of the three busses. -/
abbrev BubbleCounts := PerBus Nat

/-- Ranges that one component reserves. -/
abbrev BubbleRanges := PerBus (Option BubbleRange)

def BubbleCounts.zero : BubbleCounts := ⟨0, 0, 0⟩

def BubbleCounts.isZero (counts : BubbleCounts) : Bool := counts.toList.all (· = 0)

def BubbleRanges.none : BubbleRanges := ⟨Option.none, Option.none, Option.none⟩

/-- Hands out the ranges of one circuit in the order of the requests. -/
structure BubbleAllocation where
  /-- Circuit name, for messages. -/
  scope : String
  counts : BubbleCounts
  /-- The counts are final. -/
  isSealed : Bool
deriving DecidableEq, Repr

namespace BubbleAllocation

def start (scope : String) : BubbleAllocation := ⟨scope, .zero, false⟩

/-- Reserves the next indices of a bus. Reserving nothing yields no range. -/
def allocate [Arithmetic] (allocation : BubbleAllocation) (bus : Direction) (count : Nat)
    : Except GenerationError (BubbleAllocation × Option BubbleRange) :=
  if allocation.isSealed then
    .error (.internal (.allocationSealed allocation.scope))
  else if count = 0 then
    .ok (allocation, none)
  else do
    let first := allocation.counts.get bus
    let total ← (Word.add first count).mapError .overflow
    let last ← (Word.subtract total 1).mapError .overflow
    return ({ allocation with counts := allocation.counts.set bus total }, some ⟨first, last⟩)

/-- Reserves one range per bus. -/
def allocateAll [Arithmetic] (allocation : BubbleAllocation) (counts : BubbleCounts)
    : Except GenerationError (BubbleAllocation × BubbleRanges) := do
  let (allocation, input) ← allocation.allocate .input counts.input
  let (allocation, output) ← allocation.allocate .output counts.output
  let (allocation, inout) ← allocation.allocate .inout counts.inout
  return (allocation, ⟨input, output, inout⟩)

/-- Makes the counts final. -/
def finish (allocation : BubbleAllocation) : BubbleAllocation :=
  { allocation with isSealed := true }

end BubbleAllocation

end SchematicHdl
