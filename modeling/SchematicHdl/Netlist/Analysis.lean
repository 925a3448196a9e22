import SchematicHdl.Identifier
import SchematicHdl.Net.Draft
import SchematicHdl.Netlist.Basic

/-! Analyzing one circuit. The circuits that it instantiates have to be analyzed already. The steps
are: form the nets, resolve every end, name the boundary pins or turn them into bubbles, take in
the instantiated circuits and the clock sources, spread the clock trees, and diagnose the drivers.
-/

namespace SchematicHdl.Netlist

open Net (Point Table Draft)

/-- The nets of a circuit, with nothing attached to them. -/
def bareNets (circuit : Circuit) : Except GenerationError Table := do
  let draft := Draft.ofWidths circuit.name circuit.wires
  let joined ← circuit.joins.foldlM (fun draft wires => draft.join wires.1 wires.2) draft
  let spliced ← circuit.splices.foldlM (fun draft bits => draft.splice bits.1 bits.2) joined
  return spliced.freeze

def canonicalPoint (circuit : Circuit) (nets : Table) (bit : WireBit)
    : Except GenerationError Point :=
  match nets.canonical? bit with
  | some point => .ok point
  | none => .error (.internal (.bitOutside bit.bit bit.wire circuit.name))

/-- The points of an end that is attached to a whole wire. -/
def wirePoints (circuit : Circuit) (nets : Table) (component : Component) (endIndex : Nat)
    (shape : EndShape) (wire : Nat) : Except GenerationError (List (Option Point)) :=
  let width := circuit.wires.getD wire 0
  if width ≠ shape.width then
    .error
      (.widthMismatch circuit.name (.endOnWire endIndex component.describe wire) shape.width
        width)
  else
    (List.range width).mapM (fun bit => some <$> canonicalPoint circuit nets ⟨wire, bit⟩)

/-- The points of an end that is attached bit by bit. -/
def bitPoints (circuit : Circuit) (nets : Table) (component : Component) (endIndex : Nat)
    (shape : EndShape) (bits : List (Option WireBit))
    : Except GenerationError (List (Option Point)) :=
  if bits.length ≠ shape.width then
    .error
      (.widthMismatch circuit.name (.endBitByBit endIndex component.describe) shape.width
        bits.length)
  else
    bits.mapM (fun bit =>
      match bit with
      | some bit => some <$> canonicalPoint circuit nets bit
      | none => .ok none)

def resolveEnd (circuit : Circuit) (nets : Table) (component : Component) (endIndex : Nat)
    (shape : EndShape) : Except GenerationError ResolvedEnd := do
  let points ←
    match component.connection? endIndex with
    | none => .ok (List.replicate shape.width none)
    | some (.wire wire) => wirePoints circuit nets component endIndex shape wire
    | some (.bits bits) => bitPoints circuit nets component endIndex shape bits
  return ⟨shape.direction, points⟩

/-- A component with its ends resolved and nothing else known. -/
def resolvePart [Arithmetic] (library : Library) (circuit : Circuit) (nets : Table)
    (component : Component)
    : Except GenerationError Part := do
  let shapes ← (library.layOut component).mapError .overflow
  let ends ←
    shapes.zipIdx.mapM (fun (shape, endIndex) =>
      resolveEnd circuit nets component endIndex shape)
  return { component, ends, bubbles := .none, clockTree := none, portName := none }

/-- Files one connected bit of an end on its net. -/
def fileBit (nets : Table) (direction : Direction) (component endIndex bit : Nat) (point : Point)
    : Table :=
  let driven :=
    if direction.drives then nets.addSource point component endIndex bit else nets
  if direction.reads then driven.addSink point component endIndex bit else driven

def fileEnd (nets : Table) (component endIndex : Nat) (resolved : ResolvedEnd) : Table :=
  resolved.points.zipIdx.foldl
    (fun nets (point, bit) =>
      match point with
      | some point => fileBit nets resolved.direction component endIndex bit point
      | none => nets)
    nets

/-- Files all connected bits of a part on their nets. -/
def filePart (nets : Table) (part : Part) : Table :=
  part.ends.zipIdx.foldl
    (fun nets (resolved, endIndex) => fileEnd nets part.position endIndex resolved) nets

/-- Bubbles reserved so far, and the descriptions of the named pins under their case-folded
names. -/
structure Boundary where
  allocation : BubbleAllocation
  names : List (String × String)

/-- Names a connected pin; turns an unconnected one into a bubble. -/
def bindPin [Arithmetic] (circuit : Circuit) (direction : Direction) (part : Part)
    : StateT Boundary (Except GenerationError) Part := do
  let boundary ← get
  match part.ends with
  | [] => return part
  | resolved :: _ =>
      if resolved.isUnconnected then
        let (allocation, range) ← boundary.allocation.allocate direction resolved.width
        set { boundary with allocation }
        return { part with bubbles := part.bubbles.set direction range }
      else
        let name := Identifier.ofLabel (part.component.label.getD "") part.position
        let description := part.component.describe
        match boundary.names.lookup (Text.foldCase name) with
        | some first => throw (.identifierCollision name circuit.name first description)
        | none =>
            set { boundary with names := (Text.foldCase name, description) :: boundary.names }
            return { part with portName := some name }

def bindPart [Arithmetic] (circuit : Circuit) (part : Part)
    : StateT Boundary (Except GenerationError) Part :=
  match part.component.kind with
  | .pin direction => bindPin circuit direction part
  | _ => return part

/-- Puts a number into an ascending list that has each number once. -/
def insertAscending (n : Nat) : List Nat → List Nat
  | [] => [n]
  | m :: rest =>
      if n < m then n :: m :: rest
      else if n = m then m :: rest
      else m :: insertAscending n rest

/-- The netlist of a circuit among netlists. -/
def ofCircuit? (netlists : List Netlist) (circuit : Nat) : Option Netlist :=
  netlists.find? (fun netlist => netlist.circuit.position = circuit)

/-- What a circuit takes over from below and from its clock sources. -/
structure Inventory where
  allocation : BubbleAllocation
  clockTrees : List Nat
  registry : ClockRegistry

/-- Takes in an instance or a clock source. -/
def takeIn [Arithmetic] (circuit : Circuit) (children : List Netlist) (part : Part)
    : StateT Inventory (Except GenerationError) Part := do
  let inventory ← get
  match part.component.kind with
  | .subcircuit target =>
      match ofCircuit? children target.position with
      | none => throw (.internal (.childNotAnalyzed target.name circuit.name))
      | some child =>
          let (allocation, bubbles) ← inventory.allocation.allocateAll child.bubbles
          set
            {
              inventory with
                allocation,
                clockTrees :=
                  child.clockTrees.foldl (fun trees tree => insertAscending tree trees)
                    inventory.clockTrees
            }
          return { part with bubbles }
  | .clock =>
      let (registry, tree) :=
        inventory.registry.register circuit.name part.component.describe part.component.attributes
      set { inventory with registry, clockTrees := insertAscending tree inventory.clockTrees }
      return { part with clockTree := some tree }
  | _ => return part

/-- The clock tree that leaves a part through each of its ends. -/
def endTrees (children : List Netlist) (part : Part) : List (Option Nat) :=
  match part.component.kind with
  | .clock => [part.clockTree]
  | .subcircuit target =>
      match ofCircuit? children target.position with
      | some child => child.pins.map child.pinClock?
      | none => []
  | _ => []

/-- The points that a part puts on a clock tree, in end and bit order. -/
def treePoints (children : List Netlist) (part : Part) : List (Point × Nat) :=
  (part.ends.zip (endTrees children part)).flatMap (fun (resolved, tree) =>
    match tree with
    | some tree => resolved.connectedPoints.map (fun point => (point, tree))
    | none => [])

/-- All points on a clock tree, later ones first. -/
def sourcePoints (children : List Netlist) (parts : List Part) : List (Point × Nat) :=
  (parts.flatMap (treePoints children)).reverse

/-- The clock tree that leaves the circuit through a named one-bit output pin. -/
def outputClock? (clockPoints : Point → Option Nat) (part : Part) : Option (Nat × Nat) :=
  if part.category = .pin .output && part.portName.isSome then
    match part.ends with
    | resolved :: _ => do
        let tree ← clockPoints (← resolved.singlePoint?)
        return (part.position, tree)
    | [] => none
  else none

def driverWarnings (circuit : Circuit) (nets : Table) : List String :=
  nets.multiplyDriven.map (fun (point, count) =>
    s!"Net {nets.nameAt point.net} in circuit \"{circuit.name}\" has {count} drivers on bit "
      ++ s!"{point.bit}.")

def undrivenWarnings (circuit : Circuit) (nets : Table) : List String :=
  nets.undriven.map (fun (net, bits) =>
    s!"Net {nets.nameAt net} in circuit \"{circuit.name}\" is read but never driven on bit(s) "
      ++ s!"{Text.commaSeparated bits}.")

/-- A netlist, the clock trees registered so far and the warnings about the circuit. -/
structure Analyzed where
  netlist : Netlist
  registry : ClockRegistry
  warnings : List String

/-- Analyzes a circuit whose instantiated circuits are among `children`. -/
def analyze [Arithmetic] (library : Library) (circuit : Circuit) (children : List Netlist)
    (registry : ClockRegistry) : Except GenerationError Analyzed := do
  let bare ← bareNets circuit
  let resolved ← circuit.components.mapM (resolvePart library circuit bare)
  let nets := resolved.foldl filePart bare
  let (bound, boundary) ← (resolved.mapM (bindPart circuit)).run ⟨.start circuit.name, []⟩
  let (parts, inventory) ←
    (bound.mapM (takeIn circuit children)).run ⟨boundary.allocation, [], registry⟩
  let points := sourcePoints children parts
  let clockPoints := fun point => points.lookup point
  let outputs := parts.filterMap (outputClock? clockPoints)
  return {
    netlist := {
      circuit,
      name := Identifier.ofLabel circuit.name circuit.position,
      nets,
      parts,
      bubbles := inventory.allocation.finish.counts,
      clockTrees := inventory.clockTrees,
      clockPoints,
      pinClocks := fun pin => outputs.lookup pin
    },
    registry := inventory.registry,
    warnings := driverWarnings circuit nets ++ undrivenWarnings circuit nets
  }

end SchematicHdl.Netlist
