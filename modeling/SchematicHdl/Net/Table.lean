import SchematicHdl.Net.Basic
import SchematicHdl.Schematic.Circuit

/-! The nets of one circuit, and the point to which every wire bit resolves. -/

namespace SchematicHdl.Net

/-- The nets of a circuit, each at its position. -/
structure Table where
  scope : String
  /-- Net of each wire. -/
  wireNets : List Nat
  nets : List Net
  /-- Canonical points of the bits of each wire. -/
  canonicalPoints : Array (Array Point)

namespace Table

def widthAt (table : Table) (net : Nat) : Nat := (table.nets[net]?.map Net.width).getD 0

def nameAt (table : Table) (net : Nat) : String := signalName net (table.widthAt net)

/-- Positions of the root nets, in net order. -/
def rootNets (table : Table) : List Nat :=
  (List.range table.nets.length).filter (fun net =>
    (table.nets[net]?.map Net.isRoot).getD false)

/-- The net that a wire belongs to, whatever its splices. -/
def netOfWire? (table : Table) (wire : Nat) : Option Nat := table.wireNets[wire]?

/-- The canonical point of a bit of a wire. -/
def pointAt (table : Table) (wire bit : Nat) : Option Point := do
  (← table.canonicalPoints[wire]?)[bit]?

/-- The point that every connection to a wire bit resolves to, if the circuit has the bit. -/
def canonical? (table : Table) (bit : WireBit) : Option Point := do
  let net ← table.netOfWire? bit.wire
  if table.widthAt net ≤ bit.bit then none else table.pointAt bit.wire bit.bit

/-- The canonical point of a bit of a net. -/
def canonicalOf (table : Table) (point : Point) : Point :=
  match table.nets[point.net]? with
  | some net => (table.pointAt net.firstWire point.bit).getD point
  | none => point

/-- The bits of root nets that are not canonical, each with its canonical point. -/
def aliases (table : Table) : List (Point × Point) :=
  table.rootNets.flatMap (fun net =>
    (List.range (table.widthAt net)).filterMap (fun bit =>
      let here : Point := ⟨net, bit⟩
      let source := table.canonicalOf here
      if source = here then none else some (here, source)))

/-- Copies of single bits, adjacent ones merged into runs. -/
def toRuns : List (Point × Point) → List Run
  | [] => []
  | (target, source) :: rest =>
      match toRuns rest with
      | [] => [⟨target, source, 1⟩]
      | run :: others =>
          if (Run.mk target source 1).continuedBy run.target run.source then
            ⟨target, source, run.width + 1⟩ :: others
          else
            ⟨target, source, 1⟩ :: run :: others

/-- The copies that keep every bit of every root net driven. -/
def wiring (table : Table) : List Run := toRuns table.aliases

def addSource (table : Table) (point : Point) (component endIndex bit : Nat) : Table :=
  {
    table with
      nets :=
        table.nets.modify point.net (fun net =>
          { net with sources := net.sources ++ [⟨component, endIndex, bit, point.bit⟩] })
  }

def addSink (table : Table) (point : Point) (component endIndex bit : Nat) : Table :=
  {
    table with
      nets :=
        table.nets.modify point.net (fun net =>
          { net with sinks := net.sinks ++ [⟨component, endIndex, bit, point.bit⟩] })
  }

/-- Everything that drives a point. -/
def drivers (table : Table) (point : Point) : List Endpoint :=
  match table.nets[point.net]? with
  | some net => net.sources.filter (fun source => source.netBit = point.bit)
  | none => []

/-- Points with more than one driver, with their number of drivers. -/
def multiplyDriven (table : Table) : List (Point × Nat) :=
  (List.range table.nets.length).flatMap (fun net =>
    (List.range (table.widthAt net)).filterMap (fun bit =>
      let count := (table.drivers ⟨net, bit⟩).length
      if count > 1 then some (⟨net, bit⟩, count) else none))

/-- Nets with undriven bits, with those bits. -/
def undriven (table : Table) : List (Nat × List Nat) :=
  (List.range table.nets.length).filterMap (fun position =>
    match table.nets[position]? with
    | some net =>
        let bits := net.undrivenBits
        if bits.isEmpty then none else some (position, bits)
    | none => none)

end Table

end SchematicHdl.Net
