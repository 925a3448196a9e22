import SchematicHdl.Failure
import SchematicHdl.Net.Partition
import SchematicHdl.Net.Table

/-! Forming the nets of one circuit. Joined wires form a net; spliced bits form a bit class that may
run through several nets. Every bit class has one canonical point, to which all connections resolve.
-/

namespace SchematicHdl.Net

/-- The classes of wires and of wire bits collected so far. A wire bit is numbered by the bits of
all earlier wires.
-/
structure Draft where
  /-- Circuit name, for messages. -/
  scope : String
  /-- Width of each wire. -/
  widths : List Nat
  wires : Partition
  bits : Partition
deriving Repr

namespace Draft

def ofWidths (scope : String) (widths : List Nat) : Draft :=
  { scope, widths, wires := .discrete widths.length, bits := .discrete (totalBits widths) }

/-- Number of the first bit of a wire. -/
def offset (draft : Draft) (wire : Nat) : Nat := bitsBefore draft.widths wire

def widthOf (draft : Draft) (wire : Nat) : Except GenerationError Nat :=
  match draft.widths[wire]? with
  | some width => .ok width
  | none => .error (.internal (.wireOutside wire draft.scope))

/-- The number of a wire bit. -/
def bitNumber (draft : Draft) (bit : WireBit) : Except GenerationError Nat := do
  let width ← draft.widthOf bit.wire
  if width ≤ bit.bit then
    .error (.internal (.bitOutOfRange bit.bit bit.wire draft.scope))
  else
    .ok (draft.offset bit.wire + bit.bit)

/-- Puts two bits into one class and leaves their nets apart. -/
def splice (draft : Draft) (a b : WireBit) : Except GenerationError Draft := do
  let first ← draft.bitNumber a
  let second ← draft.bitNumber b
  return { draft with bits := draft.bits.union first second }

/-- Puts bits from two bit numbers on into one class each, one by one. -/
def unionBits (first second width : Nat) (bits : Partition) : Partition :=
  (List.range width).foldl (fun bits bit => bits.union (first + bit) (second + bit)) bits

/-- Puts two wires into one net, bit for bit. -/
def join (draft : Draft) (a b : Nat) : Except GenerationError Draft := do
  let width ← draft.widthOf a
  let found ← draft.widthOf b
  if width ≠ found then
    .error (.widthMismatch draft.scope (.joinedWires a b) width found)
  else
    return {
      draft with
        wires := draft.wires.union a b,
        bits := unionBits (draft.offset a) (draft.offset b) width draft.bits
    }

end Draft

namespace Draft

/-- The least wire of each net, in net order. -/
def rootWires (draft : Draft) : List Nat :=
  (List.range draft.widths.length).filter (fun wire => draft.wires.classOf wire = wire)

/-- The net of each wire. Nets are numbered by their least wires. -/
def wireNets (draft : Draft) : List Nat :=
  let roots := draft.rootWires
  (List.range draft.widths.length).map (fun wire => roots.idxOf (draft.wires.classOf wire))

/-- Width of each net. -/
def netWidths (draft : Draft) : List Nat :=
  draft.rootWires.map (fun wire => draft.widths.getD wire 0)

/-- A point with the class of its bit. -/
structure TaggedPoint where
  bitClass : Nat
  point : Point

/-- The bits of wires, each wire given by its width and net and their bits numbered from `first`
on.
-/
def tagBits (bits : Partition) (first : Nat) : List (Nat × Nat) → List (List TaggedPoint)
  | [] => []
  | (width, net) :: rest =>
      (List.range width).map (fun bit => ⟨bits.classOf (first + bit), ⟨net, bit⟩⟩)
        :: tagBits bits (first + width) rest

/-- The first point is preferred to the second: it lies in a wider net, or in an earlier net of the
same width, or at a lower bit of the same net.
-/
def preferred (netWidths : Array Nat) (a b : Point) : Bool :=
  let widthA := netWidths.getD a.net 0
  let widthB := netWidths.getD b.net 0
  widthB < widthA
    || (widthA = widthB && (a.net < b.net || (a.net = b.net && a.bit < b.bit)))

/-- The preferred one of a point and the best point found before. -/
def better (netWidths : Array Nat) (best : Option Point) (point : Point) : Point :=
  match best with
  | none => point
  | some found => if preferred netWidths point found then point else found

/-- The preferred point of each class below `classes`, if the class has points. -/
def bestPoints (netWidths : Array Nat) (classes : Nat) (tagged : List TaggedPoint)
    : Array (Option Point) :=
  tagged.foldl
    (fun best candidate =>
      best.modify candidate.bitClass (fun found => some (better netWidths found candidate.point)))
    (Array.replicate classes none)

/-- Fixes the nets and the canonical points. -/
def freeze (draft : Draft) : Table :=
  let wireNets := draft.wireNets
  let tagged := tagBits draft.bits 0 (draft.widths.zip wireNets)
  let best := bestPoints draft.netWidths.toArray (totalBits draft.widths) tagged.flatten
  let canonical :=
    tagged.map (fun wire =>
      wire.map (fun candidate => (best.getD candidate.bitClass none).getD candidate.point))
  {
    scope := draft.scope,
    wireNets,
    nets :=
      draft.rootWires.mapIdx (fun net wire =>
        {
          width := draft.widths.getD wire 0,
          firstWire := wire,
          isRoot := canonical.any (fun wire => wire.any (fun point => point.net = net)),
          sources := [],
          sinks := []
        }),
    canonicalPoints := (canonical.map List.toArray).toArray
  }

end Draft

end SchematicHdl.Net
