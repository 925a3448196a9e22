/-! Nets, their bits, and what lands on them. -/

namespace SchematicHdl

namespace Net

/-- One bit of a net. -/
structure Point where
  net : Nat
  bit : Nat
deriving DecidableEq, Repr

/-- The order by net and bit. -/
def Point.notAfter (a b : Point) : Bool := a.net < b.net || (a.net = b.net && a.bit ≤ b.bit)

/-- One bit of a component end, seen from the net it lands on. -/
structure Endpoint where
  component : Nat
  endIndex : Nat
  bit : Nat
  netBit : Nat
deriving DecidableEq, Repr

/-- The number of bits of wires of the given widths. -/
def totalBits : List Nat → Nat
  | [] => 0
  | width :: rest => width + totalBits rest

/-- The number of bits of all wires before a wire. -/
def bitsBefore : List Nat → Nat → Nat
  | width :: rest, wire + 1 => width + bitsBefore rest wire
  | _, _ => 0

end Net

/-- A group of wires that touch. -/
structure Net where
  width : Nat
  /-- The first of its wires; all of them carry the same bit classes. -/
  firstWire : Nat
  /-- A root net is declared as a signal; every other net is an alias of bits of root nets. -/
  isRoot : Bool
  sources : List Net.Endpoint
  sinks : List Net.Endpoint
deriving DecidableEq, Repr

namespace Net

/-- Signal name of a net. -/
def signalName (net width : Nat) : String :=
  if width = 1 then s!"s_LOGISIM_NET_{net}" else s!"s_LOGISIM_BUS_{net}"

/-- Bits of a net that something reads and nothing drives, in ascending order. -/
def undrivenBits (net : Net) : List Nat :=
  let bits := net.sinks.map Endpoint.netBit
  let undriven := bits.filter (fun bit => !net.sources.any (fun source => source.netBit = bit))
  (undriven.mergeSort (fun a b => a ≤ b)).eraseReps

/-- A contiguous copy from canonical bits of one net into aliased bits of another. -/
structure Run where
  target : Point
  source : Point
  width : Nat
deriving DecidableEq, Repr

/-- The copy of one more bit, from `source` into `target`, continues a run. -/
def Run.continuedBy (run : Run) (target source : Point) : Bool :=
  run.target.net = target.net && run.target.bit + run.width = target.bit
    && run.source.net = source.net && run.source.bit + run.width = source.bit

/-- Each point is the bit of the net that its place demands, counted from the given bit on. -/
def followsOn (net : Nat) : Nat → List (Option Point) → Bool
  | _, [] => true
  | bit, point :: rest => point = some ⟨net, bit⟩ && followsOn net (bit + 1) rest

/-- The net and first bit of points that are consecutive bits of one net. -/
def continuousBase? : List (Option Point) → Option Point
  | some first :: rest => if followsOn first.net (first.bit + 1) rest then some first else none
  | _ => none

end Net

end SchematicHdl
