import SchematicHdl.Realization.Basic
import SchematicHdl.Realization.Display

/-! One placed component, seen from the architecture of the circuit that it is placed in: the
expressions for its ends, the actuals of its ports and the statements that it becomes.
-/

namespace SchematicHdl

open Hdl (Actual Bit Expr Instance PortMap Statement)
open Net (Point)

/-- Where a component is placed and what its instance is called. -/
structure Placement where
  netlist : Netlist
  part : Part
  label : String
  mode : ClockMode

/-- What placed components leave behind for the architecture around them. -/
structure Notes where
  warnings : List String
  /-- Dangling wires that fill the holes of partly connected outputs. -/
  openWires : List String
deriving DecidableEq, Repr

def Notes.empty : Notes := ⟨[], []⟩

abbrev PlacementM := ExceptT GenerationError (StateM Notes)

/-- What a clock end is driven by. -/
inductive ClockSource where
  | tree (tree : Nat)
  /-- An ordinary net, such as the output of a gate. -/
  | gated (net : Expr)
  | unconnected
deriving Repr

namespace Placement

def description (placement : Placement) : String := placement.part.component.describe

def warn (message : String) : PlacementM Unit :=
  modify (fun notes => { notes with warnings := notes.warnings ++ [message] })

def endAt (placement : Placement) (endIndex : Nat) : Except GenerationError ResolvedEnd :=
  match placement.part.end? endIndex with
  | some resolved => .ok resolved
  | none =>
      .error
        (.internal
          (.missingEnd placement.description placement.netlist.circuit.name endIndex))

def isUnconnected (placement : Placement) (endIndex : Nat) : Except GenerationError Bool := do
  return (← placement.endAt endIndex).isUnconnected

/-- The whole end as one expression, when it is a contiguous slice of one net. -/
def whole? (placement : Placement) (endIndex : Nat) : Except GenerationError (Option Expr) := do
  return placement.netlist.endExpr? (← placement.endAt endIndex)

/-- One bit of an end, when it is connected. -/
def bit? (placement : Placement) (endIndex bit : Nat) : Except GenerationError (Option Expr) := do
  let resolved ← placement.endAt endIndex
  return (resolved.points[bit]?.join).map placement.netlist.pointExpr

/-- The actual of an input port that is fed by an end. Unconnected bits read the tie value. -/
def inputEnd (placement : Placement) (endIndex : Nat) (tie : Bit)
    : Except GenerationError Actual := do
  let resolved ← placement.endAt endIndex
  if resolved.isUnconnected then
    return .whole (.filled tie (.fixed resolved.width))
  match placement.netlist.endExpr? resolved with
  | some expr => return .whole expr
  | none =>
      return .perBit (resolved.points.map (fun point =>
        match point with
        | some point => placement.netlist.pointExpr point
        | none => .bit tie))

/-- A new dangling wire. -/
def openWire : PlacementM Expr := do
  let name := s!"s_LOGISIM_OPEN_{(← get).openWires.length}"
  modify (fun notes => { notes with openWires := notes.openWires ++ [name] })
  return .ref name

/-- The expression itself, or a new dangling wire where there is none. -/
def orOpenWire : Option Expr → PlacementM Expr
  | some expr => return expr
  | none => openWire

/-- The actual of an output port that drives an end. -/
def outputEnd (placement : Placement) (endIndex : Nat) : PlacementM Actual := do
  let resolved ← MonadExcept.ofExcept (placement.endAt endIndex)
  if resolved.isUnconnected then
    return .unconnected
  match placement.netlist.endExpr? resolved with
  | some expr => return .whole expr
  | none =>
      return .perBit
        (← resolved.points.mapM (fun point =>
          orOpenWire (point.map placement.netlist.pointExpr)))

def clockSource (placement : Placement) (endIndex : Nat) : Except GenerationError ClockSource := do
  let resolved ← placement.endAt endIndex
  match resolved.points.head?.join with
  | none => return .unconnected
  | some point =>
      match placement.netlist.clockTreeOf? point with
      | some tree => return .tree tree
      | none => return .gated (placement.netlist.pointExpr point)

/-- The clock of a clock end, and the tick that enables it. -/
def clockAndTick (mode : ClockMode) : ClockSource → Expr × Expr
  | .tree tree =>
      match mode with
      | .derived => (.index (clockTreeName tree) derivedClockBit, .bit .one)
      | .globalTick => (.ref globalClockName, .index (clockTreeName tree) risingTickBit)
  | .gated net => (net, .bit .one)
  | .unconnected => (.bit .zero, .bit .zero)

/-- Warns of a clock end that is not on a clock tree. -/
def warnOfClock (placement : Placement) : ClockSource → PlacementM Unit
  | .tree _ => return
  | .gated _ =>
      warn s!"Found a gated clock on {placement.description}; it is clocked by an ordinary net."
  | .unconnected =>
      warn
        (s!"The clock input of {placement.description} is not connected, tied it to "
          ++ "'0'.")

/-- The range of the component on a bubble bus of its circuit. -/
def bubbles (placement : Placement) (bus : Direction) : Except GenerationError Expr :=
  match placement.part.bubbles.get bus with
  | some range => .ok (placement.netlist.bubbleExpr bus range)
  | none =>
      .error
        (.internal
          (.missingBubbles placement.description (bubblePort bus) placement.netlist.name))

/-- The first bits of several ends. -/
def firstBits (placement : Placement) (ends : List Nat)
    : Except GenerationError (List (Option Expr)) :=
  ends.mapM (fun endIndex => placement.bit? endIndex 0)

def inputActual (placement : Placement) (port : Port) : PlacementM Actual := do
  match port.source with
  | .whole endIndex => MonadExcept.ofExcept (placement.inputEnd endIndex port.tie)
  | .bitwise ends =>
      let bits ← MonadExcept.ofExcept (placement.firstBits ends)
      if bits.all Option.isNone then
        return .whole (.filled port.tie (.fixed port.width))
      else
        return .perBit (bits.map (fun bit => bit.getD (.bit port.tie)))
  | .clockOf endIndex =>
      let source ← MonadExcept.ofExcept (placement.clockSource endIndex)
      placement.warnOfClock source
      return .whole (clockAndTick placement.mode source).1
  | .tickOf endIndex =>
      let source ← MonadExcept.ofExcept (placement.clockSource endIndex)
      return .whole (clockAndTick placement.mode source).2
  | .bubbles bus => return .whole (← MonadExcept.ofExcept (placement.bubbles bus))
  | .fixed expr => return .whole expr

/-- Nothing is connected to the end; there may be no such end. -/
def drivesNothing (placement : Placement) (endIndex : Nat) : Bool :=
  match placement.isUnconnected endIndex with
  | .ok unconnected => unconnected
  | .error _ => true

def outputActual (placement : Placement) (port : Port) : PlacementM Actual := do
  match port.source with
  | .whole endIndex => placement.outputEnd endIndex
  | .bitwise ends =>
      if ends.all placement.drivesNothing then
        return .unconnected
      else
        return .perBit
          (← ends.mapM (fun endIndex => do
            orOpenWire (← MonadExcept.ofExcept (placement.bit? endIndex 0))))
  | .bubbles bus => return .whole (← MonadExcept.ofExcept (placement.bubbles bus))
  | source =>
      throw (.internal (.undrivablePort port.name placement.description source.display))

/-- The instance of a component with its own definition. -/
def instantiate (placement : Placement) (form : Form) : PlacementM Instance := do
  let inputs ←
    form.inputs.mapM (fun port => do return ⟨port.name, ← placement.inputActual port⟩)
  let driven ←
    form.drivingPorts.mapM (fun port => do return ⟨port.name, ← placement.outputActual port⟩)
  return {
    label := placement.label,
    unit := form.name,
    generics := form.parameters,
    ports := inputs ++ driven
  }

/-- The assignments of a constant: one for the whole end, or one for each connected bit. -/
def constantStatements (placement : Placement) : Except GenerationError (List Statement) := do
  let attributes := placement.part.component.attributes
  let width := attributes.width
  let value := attributes.constantValue % Nat.pow 2 (min width maxWidth)
  match ← placement.whole? Gate.outputEnd with
  | some target => return [.assign target (.const value width)]
  | none =>
      let targets ← (List.range width).mapM (fun bit => placement.bit? Gate.outputEnd bit)
      return targets.zipIdx.filterMap (fun (target, bit) =>
        target.map (fun target =>
          .assign target (.bit (if value.testBit bit then .one else .zero))))

/-- The whole operands of a gate, when each of them is a contiguous slice. -/
def wholeOperands? (placement : Placement) (inputs : List Nat)
    : Except GenerationError (Option (List Expr)) := do
  return (← inputs.mapM placement.whole?).mapM id

/-- The assignment of one output bit from the connected input bits at its place. -/
def gateBit? (placement : Placement) (type : Primitive) (inputs : List Nat) (bit : Nat)
    : Except GenerationError (Option Statement) := do
  match ← placement.bit? Gate.outputEnd bit with
  | none => return none
  | some target =>
      let operands := (← inputs.mapM (fun endIndex => placement.bit? endIndex bit)).filterMap id
      if operands.isEmpty then return none
      else return some (.assign target (Gate.combine type operands))

/-- The assignments of a gate from inputs that are connected: one for the whole output, or one for
each bit.
-/
def gateStatements (placement : Placement) (type : Primitive) (inputs : List Nat)
    : Except GenerationError (List Statement) := do
  let whole ← placement.whole? Gate.outputEnd
  let operands ← placement.wholeOperands? inputs
  match whole, operands with
  | some target, some operands => return [.assign target (Gate.combine type operands)]
  | _, _ =>
      let width := placement.part.component.attributes.width
      return (← (List.range width).mapM (placement.gateBit? type inputs)).filterMap id

/-- The statements of a gate. Unconnected inputs are left out. -/
def gateBody (placement : Placement) (type : Primitive) : PlacementM (List Statement) := do
  let ends := Gate.inputEnds type placement.part.component.attributes
  let connected ←
    MonadExcept.ofExcept (ends.filterM (fun endIndex => do
      return !(← placement.isUnconnected endIndex)))
  if connected.isEmpty then
    warn s!"{placement.description} has no connected inputs, its output is left undriven."
    return []
  MonadExcept.ofExcept (placement.gateStatements type connected)

/-- The statements that a component becomes in the architecture of its circuit. -/
def inlineStatements (placement : Placement) (realization : Realization)
    : PlacementM (List Statement) := do
  match realization.definition with
  | .inlined type =>
      if ← MonadExcept.ofExcept (placement.isUnconnected Gate.outputEnd) then
        return []
      else if type = .constant then
        MonadExcept.ofExcept placement.constantStatements
      else
        placement.gateBody type
  | _ => throw (.internal (.notInlinable realization.form.origin))

end Placement

end SchematicHdl
