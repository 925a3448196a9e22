import SchematicHdl.Attributes
import SchematicHdl.Direction
import SchematicHdl.Machine
import SchematicHdl.Text

/-! The built-in component types. The configuration of a component decides its ends, in the order
in which connections are numbered; a configuration outside the supported ranges has no ends and is
refused with its fault.
-/

namespace SchematicHdl

/-- Direction and width of one end of a component. -/
structure EndShape where
  direction : Direction
  width : Nat
deriving DecidableEq, Repr

def EndShape.input (width : Nat) : EndShape := ⟨.input, width⟩

def EndShape.output (width : Nat) : EndShape := ⟨.output, width⟩

/-- Narrowest wire, pin or port. -/
def minWidth : Nat := 1

/-- Widest wire, pin or port. -/
def maxWidth : Nat := 64

def isSupportedWidth (width : Nat) : Bool := minWidth ≤ width && width ≤ maxWidth

/-- A built-in component type. -/
inductive Primitive where
  | multiplexer
  | demultiplexer
  | decoder
  | priorityEncoder
  | and
  | or
  | xor
  | nand
  | nor
  | xnor
  | not
  | constant
  | register
deriving DecidableEq, Repr

/-- Why a configuration describes no component. -/
inductive ShapeFault where
  | dataWidth (type : Primitive) (found : Nat)
  | selectWidth (type : Primitive) (found : Nat)
  | disabledOutput (type : Primitive) (found : AttributeValue)
  | inputCount (type : Primitive) (found : Nat)
  | constantOverflow (value width : Nat)
deriving DecidableEq, Repr

namespace Primitive

def all : List Primitive :=
  [.multiplexer, .demultiplexer, .decoder, .priorityEncoder, .and, .or, .xor, .nand, .nor, .xnor,
   .not, .constant, .register]

/-- Name used in messages. -/
def name : Primitive → String
  | .multiplexer => "Multiplexer"
  | .demultiplexer => "Demultiplexer"
  | .decoder => "Decoder"
  | .priorityEncoder => "Priority Encoder"
  | .and => "AND Gate"
  | .or => "OR Gate"
  | .xor => "XOR Gate"
  | .nand => "NAND Gate"
  | .nor => "NOR Gate"
  | .xnor => "XNOR Gate"
  | .not => "NOT Gate"
  | .constant => "Constant"
  | .register => "Register"

/-- Spelling used in design files. -/
def key : Primitive → String
  | .multiplexer => "multiplexer"
  | .demultiplexer => "demultiplexer"
  | .decoder => "decoder"
  | .priorityEncoder => "priority_encoder"
  | .and => "and"
  | .or => "or"
  | .xor => "xor"
  | .nand => "nand"
  | .nor => "nor"
  | .xnor => "xnor"
  | .not => "not"
  | .constant => "constant"
  | .register => "register"

def ofKey? (key : String) : Option Primitive := all.find? (fun type => type.key = key)

/-- Routes between several ends by a select input. -/
def isSelector : Primitive → Bool
  | .multiplexer => true
  | .demultiplexer => true
  | .decoder => true
  | .priorityEncoder => true
  | _ => false

/-- Combines a configurable number of inputs. -/
def isGate : Primitive → Bool
  | .and => true
  | .or => true
  | .xor => true
  | .nand => true
  | .nor => true
  | .xnor => true
  | _ => false

/-- Has data ends whose width is configurable. -/
def hasDataWidth : Primitive → Bool
  | .decoder => false
  | .priorityEncoder => false
  | _ => true

def maxSelectBits : Nat := 5

def minGateInputs : Nat := 2

def maxGateInputs : Nat := 32

def selectFault? (type : Primitive) (attributes : Attributes) : Option ShapeFault :=
  let select := attributes.number "select" 1
  if 1 ≤ select && select ≤ maxSelectBits then none else some (.selectWidth type select)

def disabledFault? (type : Primitive) (attributes : Attributes) : Option ShapeFault :=
  match attributes.get? "disabled" with
  | none => none
  | some (.text "zero") => none
  | some (.text "floating") => none
  | some found => some (.disabledOutput type found)

def widthFault? (type : Primitive) (attributes : Attributes) : Option ShapeFault :=
  let width := attributes.number "width" 1
  if isSupportedWidth width then none else some (.dataWidth type width)

def inputCountFault? (type : Primitive) (attributes : Attributes) : Option ShapeFault :=
  let inputs := attributes.inputCount
  if minGateInputs ≤ inputs && inputs ≤ maxGateInputs then none
  else some (.inputCount type inputs)

/-- A constant has to fit into its width. The widest width holds every value. -/
def constantFault? (attributes : Attributes) : Option ShapeFault :=
  let width := attributes.number "width" 1
  let value := attributes.constantValue
  if width < maxWidth && Nat.pow 2 width ≤ value then some (.constantOverflow value width) else none

/-- The first fault of a configuration. -/
def shapeFault? (type : Primitive) (attributes : Attributes) : Option ShapeFault :=
  (if type.isSelector then selectFault? type attributes else none)
    <|> (if type.isSelector then disabledFault? type attributes else none)
    <|> (if type.hasDataWidth then widthFault? type attributes else none)
    <|> (if type.isGate then inputCountFault? type attributes else none)
    <|> (if type = .constant then constantFault? attributes else none)

/-- Number of data ends of a selecting component: a one, shifted left in a long word. -/
def selectionCount (attributes : Attributes) : Nat :=
  Nat.pow 2 (attributes.selectBits % Word.longBits)

def enableEnds (attributes : Attributes) : List EndShape :=
  if attributes.hasEnable then [.input 1] else []

/-- The ends of a component with a supported configuration and a number of data ends if it selects,
in connection order.
-/
def endsFor (type : Primitive) (attributes : Attributes) (count : Nat) : List EndShape :=
  let width := attributes.width
  let select := attributes.selectBits
  match type with
  | .multiplexer =>
      List.replicate count (.input width) ++ [.input select] ++ enableEnds attributes
        ++ [.output width]
  | .demultiplexer =>
      List.replicate count (.output width) ++ [.input select] ++ enableEnds attributes
        ++ [.input width]
  | .decoder => List.replicate count (.output 1) ++ [.input select] ++ enableEnds attributes
  | .priorityEncoder =>
      List.replicate count (.input 1) ++ [.output select, .input 1, .output 1, .output 1]
  | .not => [.output width, .input width]
  | .constant => [.output width]
  | .register => [.output width, .input width, .input 1, .input 1, .input 1]
  | _ => .output width :: List.replicate attributes.inputCount (.input width)

/-- The ends of a component with a supported configuration. -/
def ends (type : Primitive) (attributes : Attributes) : List EndShape :=
  type.endsFor attributes (selectionCount attributes)

/-- Lays out the ends. Data ends are counted first, for every type: the shift by the select width
may end the run also where nothing is selected.
-/
def layOut [Arithmetic] (type : Primitive) (attributes : Attributes)
    : Except Overflow (List EndShape) := do
  let count ← Word.power attributes.selectBits
  return type.endsFor attributes count

/-- End positions of a register. -/
def registerOutput : Nat := 0

def registerData : Nat := 1

def registerClock : Nat := 2

def registerReset : Nat := 3

def registerEnable : Nat := 4

end Primitive

def ShapeFault.message : ShapeFault → String
  | .dataWidth type found =>
      s!"{type.name} width must be between {minWidth} and {maxWidth} bit(s), not {found}"
  | .selectWidth type found =>
      s!"{type.name} select width must be between 1 and {Primitive.maxSelectBits} bit(s), "
        ++ s!"not {found}"
  | .disabledOutput type found =>
      type.name ++ " disabled output must be \"zero\" or \"floating\", not " ++ found.display
  | .inputCount type found =>
      s!"{type.name} must have between {Primitive.minGateInputs} and "
        ++ s!"{Primitive.maxGateInputs} inputs, not {found}"
  | .constantOverflow value width => s!"Constant value {value} doesn't fit into {width} bit(s)"

end SchematicHdl
