import SchematicHdl.Bubble
import SchematicHdl.Clock
import SchematicHdl.Hdl.Expr
import SchematicHdl.Net.Table

/-! Netlists: circuits whose connections are resolved to points of nets, with the bubbles, boundary
ports and clock trees that follow from them.
-/

namespace SchematicHdl

open Net (Point Table)
open Hdl (Expr)

/-- The part that a component plays in its circuit. -/
inductive Category where
  | normal
  | subcircuit
  | clockSource
  | pin (direction : Direction)
deriving DecidableEq, Repr

def Component.category (component : Component) : Category :=
  match component.kind with
  | .primitive _ => .normal
  | .external _ => .normal
  | .unknown _ _ => .normal
  | .subcircuit _ => .subcircuit
  | .clock => .clockSource
  | .pin direction => .pin direction

/-- One end of a component, resolved to canonical points. -/
structure ResolvedEnd where
  direction : Direction
  /-- One entry per end bit, least significant bit first. -/
  points : List (Option Point)
deriving DecidableEq, Repr

namespace ResolvedEnd

def width (resolved : ResolvedEnd) : Nat := resolved.points.length

def isUnconnected (resolved : ResolvedEnd) : Bool := resolved.points.all Option.isNone

def isFullyConnected (resolved : ResolvedEnd) : Bool := resolved.points.all Option.isSome

/-- The points of the connected bits, in bit order. -/
def connectedPoints (resolved : ResolvedEnd) : List Point := resolved.points.filterMap id

/-- The point of an end that has one bit, if the bit is connected. -/
def singlePoint? (resolved : ResolvedEnd) : Option Point :=
  match resolved.points with
  | [point] => point
  | _ => none

/-- Where the end starts when it is a contiguous slice of one net. -/
def slice? (resolved : ResolvedEnd) : Option Point := Net.continuousBase? resolved.points

end ResolvedEnd

/-- A component of a netlist. -/
structure Part where
  component : Component
  ends : List ResolvedEnd
  bubbles : BubbleRanges
  /-- The tree of a clock source. -/
  clockTree : Option Nat
  /-- Name of the boundary port of a pin that is connected. -/
  portName : Option String
deriving DecidableEq, Repr

namespace Part

def position (part : Part) : Nat := part.component.position

def category (part : Part) : Category := part.component.category

def isPin (part : Part) : Bool := part.component.isPin

def end? (part : Part) (endIndex : Nat) : Option ResolvedEnd := part.ends[endIndex]?

def isConnected (part : Part) : Bool := part.ends.any (fun resolved => !resolved.isUnconnected)

end Part

/-- The analyzed form of one circuit. -/
structure Netlist where
  circuit : Circuit
  /-- Identifier of the emitted definition. -/
  name : String
  nets : Table
  parts : List Part
  /-- Widths of the bubble busses, with everything below the circuit. -/
  bubbles : BubbleCounts
  /-- Clock trees used by the circuit or anything below it, in ascending order. -/
  clockTrees : List Nat
  /-- The clock tree that a point carries. -/
  clockPoints : Point → Option Nat
  /-- The clock tree that a pin carries across the boundary, by the position of the pin. -/
  pinClocks : Nat → Option Nat

namespace Netlist

/-- Boundary pins, in the order in which instances number their ends. -/
def pins (netlist : Netlist) : List Part := netlist.parts.filter Part.isPin

def part? (netlist : Netlist) (position : Nat) : Option Part := netlist.parts[position]?

/-- The points that the part at a position is connected to. -/
def pointsAt (netlist : Netlist) (position : Nat) : List Point :=
  match netlist.part? position with
  | some part => part.ends.flatMap ResolvedEnd.connectedPoints
  | none => []

/-- The clock tree that a point carries. -/
def clockTreeOf? (netlist : Netlist) (point : Point) : Option Nat :=
  netlist.clockPoints point

/-- The points of ends that carry a clock tree, each once with its tree, by net and bit. -/
def clockedPoints (netlist : Netlist) : List (Point × Nat) :=
  let ends := netlist.parts.flatMap Part.ends
  let points := (ends.flatMap ResolvedEnd.connectedPoints).eraseDups.mergeSort Point.notAfter
  points.filterMap (fun point => (netlist.clockTreeOf? point).map (fun tree => (point, tree)))

/-- The clock tree that a pin carries across the boundary. -/
def pinClock? (netlist : Netlist) (pin : Part) : Option Nat :=
  netlist.pinClocks pin.position

/-- The circuit needs the global clock. -/
def needsGlobalClock (netlist : Netlist) (mode : ClockMode) : Bool :=
  mode = .globalTick && !netlist.clockTrees.isEmpty

/-- The signal bit of a point. -/
def pointExpr (netlist : Netlist) (point : Point) : Expr :=
  let name := netlist.nets.nameAt point.net
  if netlist.nets.widthAt point.net = 1 then .ref name else .index name point.bit

/-- Consecutive bits of a net, from the given point on. -/
def sliceExpr (netlist : Netlist) (first : Point) (width : Nat) : Expr :=
  let name := netlist.nets.nameAt first.net
  if first.bit = 0 && width = netlist.nets.widthAt first.net then .ref name
  else .range name (first.bit + width - 1) first.bit

/-- The whole of an end, when it is a contiguous slice of one net. -/
def endExpr? (netlist : Netlist) (resolved : ResolvedEnd) : Option Expr :=
  resolved.slice?.map (fun first => netlist.sliceExpr first resolved.width)

/-- A range of one of the circuit's own bubble busses. -/
def bubbleExpr (netlist : Netlist) (bus : Direction) (range : BubbleRange) : Expr :=
  if netlist.bubbles.get bus = 1 then .ref (bubblePort bus)
  else .range (bubblePort bus) range.last range.first

end Netlist

end SchematicHdl
