import SchematicHdl.Attributes

/-! Clock trees. Clock sources of the same shape share one tree wherever they are placed; a tree
remembers the first source that was registered for it.
-/

namespace SchematicHdl

/-- The waveform of a clock. -/
structure ClockShape where
  highTicks : Nat
  lowTicks : Nat
  phase : Nat
deriving DecidableEq, Repr

def ClockShape.ofAttributes (attributes : Attributes) : ClockShape :=
  {
    highTicks := attributes.number "high_ticks" 1,
    lowTicks := attributes.number "low_ticks" 1,
    phase := attributes.number "phase" 0
  }

/-- A clock tree, without its number. -/
structure ClockTree where
  /-- Circuit of the first source. -/
  circuit : String
  /-- Description of the first source. -/
  source : String
  shape : ClockShape
deriving DecidableEq, Repr

/-- Signal name of a clock tree. -/
def clockTreeName (tree : Nat) : String := s!"LOGISIM_CLOCK_TREE_{tree}"

/-- Width of every clock tree signal. -/
def clockTreeWidth : Nat := 5

/-- Bit of a clock tree signal that carries the derived clock. -/
def derivedClockBit : Nat := 0

/-- Bit of a clock tree signal that is high in the tick before a rising edge. -/
def risingTickBit : Nat := 2

/-- Name of the one external clock of a design with a global tick. -/
def globalClockName : String := "FPGA_GlobalClock"

/-- How sequential components are clocked. -/
inductive ClockMode where
  /-- Every clock tree drives its registers directly. -/
  | derived
  /-- All registers run on one external clock, enabled by the ticks of their trees. -/
  | globalTick
deriving DecidableEq, Repr

def ClockMode.ofName? : String → Option ClockMode
  | "derived" => some .derived
  | "global_tick" => some .globalTick
  | _ => none

def ClockMode.name : ClockMode → String
  | .derived => "derived"
  | .globalTick => "global_tick"

/-- The clock trees of a design, each at its number. -/
structure ClockRegistry where
  trees : List ClockTree
deriving DecidableEq, Repr

namespace ClockRegistry

def empty : ClockRegistry := ⟨[]⟩

/-- The number of the tree of a source; the tree is added when it is new. -/
def register (registry : ClockRegistry) (circuit source : String) (attributes : Attributes)
    : ClockRegistry × Nat :=
  let shape := ClockShape.ofAttributes attributes
  match registry.trees.findIdx? (fun tree => tree.shape = shape) with
  | some tree => (registry, tree)
  | none => (⟨registry.trees ++ [{ circuit, source, shape }]⟩, registry.trees.length)

end ClockRegistry

end SchematicHdl
