import SchematicHdl.Dialect
import SchematicHdl.Hdl.Expr
import SchematicHdl.Machine

/-! Why a generation run ends without a result, and the message for each cause. -/

namespace SchematicHdl

/-- Two connected things that have to be equally wide. -/
inductive WidthConflict where
  | joinedWires (a b : Nat)
  | endOnWire (endIndex : Nat) (component : String) (wire : Nat)
  | endBitByBit (endIndex : Nat) (component : String)
deriving DecidableEq, Repr

/-- An invariant of the generator that does not hold. -/
inductive Fault where
  | indentUnderflow
  | emptyBitMap (formal label : String)
  | levelUnderflow
  | wireOutside (wire : Nat) (circuit : String)
  | bitOutOfRange (bit wire : Nat) (circuit : String)
  | bitOutside (bit wire : Nat) (circuit : String)
  | allocationSealed (circuit : String)
  | childNotAnalyzed (child parent : String)
  | circuitNotAnalyzed (circuit : String)
  | noDefinition (origin : String)
  | notInlinable (origin : String)
  | notRealizable (component : String)
  | missingEnd (component circuit : String) (endIndex : Nat)
  /-- `source` shows where the port takes its value from. -/
  | undrivablePort (port component source : String)
  | missingBubbles (component bus netlist : String)
  | other (text : String)
deriving DecidableEq, Repr

/-- Why a run fails. A failed run says nothing about a run for another dialect. -/
inductive GenerationError where
  /-- The component cannot be expressed in the dialect. -/
  | unsupportedComponent (component attributes : String) (dialect : Dialect)
  | widthMismatch (circuit : String) (conflict : WidthConflict) (expected found : Nat)
  /-- Two objects of one scope have the same identifier. -/
  | identifierCollision (identifier scope first second : String)
  /-- A circuit instantiates itself by way of other circuits; the steps lead back to it. -/
  | recursiveCircuit (circuit : String) (steps : List String)
  | internal (fault : Fault)
  /-- Arithmetic left its word in a build that checks for it. The run breaks off. -/
  | overflow (cause : Overflow)
deriving DecidableEq, Repr

def WidthConflict.message : WidthConflict → String
  | .joinedWires a b => s!"wires {a} and {b} are joined"
  | .endOnWire endIndex component wire =>
      s!"end {endIndex} of {component} is connected to wire {wire}"
  | .endBitByBit endIndex component => s!"end {endIndex} of {component} is connected bit by bit"

def Fault.message : Fault → String
  | .indentUnderflow => "code writer indent level underflow"
  | .emptyBitMap formal label =>
      s!"empty per-bit port map for \"{formal}\" of instance \"{label}\""
  | .levelUnderflow => "Popped a hierarchy level that was never pushed."
  | .wireOutside wire circuit => s!"Wire {wire} is not part of circuit \"{circuit}\"."
  | .bitOutOfRange bit wire circuit =>
      s!"Bit {bit} of wire {wire} is out of range in circuit \"{circuit}\"."
  | .bitOutside bit wire circuit =>
      s!"Bit {bit} of wire {wire} is not part of circuit \"{circuit}\"."
  | .allocationSealed circuit =>
      s!"Bubble range requested for \"{circuit}\" after its allocation was sealed."
  | .childNotAnalyzed child parent =>
      s!"Circuit \"{child}\" was not analyzed before its parent \"{parent}\"."
  | .circuitNotAnalyzed circuit => s!"Circuit \"{circuit}\" is not part of the analyzed design."
  | .noDefinition origin => s!"\"{origin}\" has no body of its own."
  | .notInlinable origin => s!"\"{origin}\" cannot be inlined."
  | .notRealizable component => s!"{component} is handled by its circuit and has no binding."
  | .missingEnd component circuit endIndex =>
      s!"{component} in circuit \"{circuit}\" has no end {endIndex}."
  | .undrivablePort port component source =>
      s!"Output port \"{port}\" of {component} cannot be driven by {source}."
  | .missingBubbles component bus netlist =>
      s!"{component} has no {bus} range on the bubble bus of \"{netlist}\"."
  | .other text => text

def GenerationError.message : GenerationError → String
  | .unsupportedComponent component attributes dialect =>
      s!"Component \"{component}\" ({attributes}) cannot be generated in {dialect.displayName}."
  | .widthMismatch circuit conflict expected found =>
      s!"Width mismatch in circuit \"{circuit}\": {conflict.message} ({expected} bit(s) vs "
        ++ s!"{found} bit(s))."
  | .identifierCollision identifier scope first second =>
      s!"Identifier \"{identifier}\" is used by both {first} and {second} in \"{scope}\"."
  | .recursiveCircuit circuit steps =>
      let path := " -> ".intercalate steps
      s!"Circuit \"{circuit}\" has a recursive definition formed by an instance of itself via "
        ++ s!"{path}."
  | .internal fault => s!"INTERNAL ERROR: {fault.message}"
  | .overflow cause => cause.message

end SchematicHdl
