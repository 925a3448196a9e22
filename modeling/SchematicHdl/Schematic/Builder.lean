import SchematicHdl.Schematic.Circuit

/-! Building the circuits of a library step by step. Each step checks what it is given; a step that
is misused changes nothing and names its misuse.
-/

namespace SchematicHdl

/-- A wire, named together with the position of the circuit it belongs to. -/
structure WireId where
  circuit : Nat
  wire : Nat
deriving DecidableEq, Repr

/-- Why a building step is impossible. -/
inductive Misuse where
  | duplicateCircuit (name : String)
  | narrowWire (width : Nat)
  | wideWire (width : Nat)
  | foreignWire (owner circuit : String)
  | noSuchWire (wire : Nat) (circuit : String) (count : Nat)
  | noSuchBit (bit wire : Nat) (circuit : String) (width : Nat)
  | unsupportedShape (type : Primitive) (circuit : String) (fault : ShapeFault)
  | pinWidth (pin : String) (width : Nat) (circuit : String)
  | foreignCircuit (child parent : String)
  | noSuchEnd (endIndex : Nat) (component circuit : String) (count : Nat)
  /-- Arithmetic left its word in a build that checks for it. -/
  | overflow (cause : Overflow)
deriving DecidableEq, Repr

def Misuse.message : Misuse → String
  | .duplicateCircuit name =>
      s!"A circuit called \"{name}\" already exists in this context."
  | .narrowWire width =>
      s!"Cannot create a wire with {width} bit(s). Wires must not be narrower than "
        ++ s!"{minWidth} bit(s)."
  | .wideWire width =>
      s!"Cannot create a wire with {width} bit(s). Wires must not be wider than {maxWidth} bit(s)."
  | .foreignWire owner circuit =>
      s!"Cannot use a wire of circuit \"{owner}\" in circuit \"{circuit}\"."
  | .noSuchWire wire circuit count =>
      s!"Cannot use wire {wire} in circuit \"{circuit}\" because it only has {count} wire(s)."
  | .noSuchBit bit wire circuit width =>
      s!"Cannot use bit {bit} of wire {wire} in circuit \"{circuit}\" because the wire is only "
        ++ s!"{width} bit(s) wide."
  | .unsupportedShape type circuit fault =>
      s!"Cannot place a {type.name} in circuit \"{circuit}\": {fault.message}."
  | .pinWidth pin width circuit =>
      s!"Cannot create pin \"{pin}\" with {width} bit(s) in circuit \"{circuit}\". Pins must be "
        ++ s!"between {minWidth} and {maxWidth} bit(s) wide."
  | .foreignCircuit child parent =>
      s!"Cannot instantiate circuit \"{child}\" in circuit \"{parent}\" because they belong to "
        ++ "different contexts."
  | .noSuchEnd endIndex component circuit count =>
      s!"Cannot connect end {endIndex} of {component} in circuit \"{circuit}\" because it only has "
        ++ s!"{count} end(s)."
  | .overflow cause => cause.message

/-- A building step. -/
abbrev BuildM := StateT Library (Except Misuse)

namespace Library

/-- The wire exists in the circuit at a position. -/
def checkWire (library : Library) (circuit : Nat) (wire : WireId) : Except Misuse Unit :=
  let target := library.circuitAt circuit
  if wire.circuit ≠ circuit then
    .error (.foreignWire ((library.circuit? wire.circuit).elim "" Circuit.name) target.name)
  else if target.wires.length ≤ wire.wire then
    .error (.noSuchWire wire.wire target.name target.wires.length)
  else
    .ok ()

/-- The width of a wire of the circuit at a position. -/
def wireWidth (library : Library) (circuit : Nat) (wire : WireId) : Except Misuse Nat := do
  library.checkWire circuit wire
  return (library.circuitAt circuit).wires.getD wire.wire 0

/-- The wire has the bit. -/
def checkWireBit (library : Library) (circuit : Nat) (wire : WireId) (bit : Nat)
    : Except Misuse Unit := do
  let width ← library.wireWidth circuit wire
  if width ≤ bit then
    .error (.noSuchBit bit wire.wire (library.circuitAt circuit).name width)

/-- The component has the end. -/
def checkEnd [Arithmetic] (library : Library) (circuit : Nat) (component : Component)
    (endIndex : Nat) : Except Misuse Unit := do
  let count := (← (library.layOut component).mapError .overflow).length
  if count ≤ endIndex then
    .error (.noSuchEnd endIndex component.describe (library.circuitAt circuit).name count)

end Library

namespace Build

def updateCircuit (position : Nat) (change : Circuit → Circuit) : BuildM Unit :=
  modify (fun library => { library with circuits := library.circuits.modify position change })

/-- The result of a check on the library as it stands. -/
def check {α : Type} (test : Library → Except Misuse α) : BuildM α := do
  match test (← get) with
  | .ok value => return value
  | .error misuse => throw misuse

/-- Adds an empty circuit under a new name. -/
def circuit (name : String) : BuildM CircuitRef := do
  let library ← get
  if (library.find? name).isSome then
    throw (.duplicateCircuit name)
  let position := library.circuits.length
  set { library with circuits := library.circuits ++ [Circuit.empty position name] }
  return ⟨library.tag, position, name⟩

/-- Adds an externally described entity. -/
def entity (name : String) (dialect : Dialect) (ports : List EntityPort) (body : String)
    : BuildM ExternalEntity := do
  let library ← get
  let entity : ExternalEntity :=
    { position := library.entities.length, name, dialect, ports, body }
  set { library with entities := library.entities ++ [entity] }
  return entity

def wire (circuit width : Nat) : BuildM WireId := do
  if width < minWidth then
    throw (.narrowWire width)
  if maxWidth < width then
    throw (.wideWire width)
  let position := ((← get).circuitAt circuit).wires.length
  updateCircuit circuit (fun target => { target with wires := target.wires ++ [width] })
  return ⟨circuit, position⟩

/-- Records that two wires touch. Their widths are compared when the circuit is analyzed. -/
def join (circuit : Nat) (a b : WireId) : BuildM Unit := do
  check (fun library => library.checkWire circuit a)
  check (fun library => library.checkWire circuit b)
  updateCircuit circuit (fun target => { target with joins := target.joins ++ [(a.wire, b.wire)] })

/-- Ties two wire bits together. -/
def splice (circuit : Nat) (a : WireId) (aBit : Nat) (b : WireId) (bBit : Nat) : BuildM Unit := do
  check (fun library => library.checkWireBit circuit a aBit)
  check (fun library => library.checkWireBit circuit b bBit)
  updateCircuit circuit (fun target =>
    { target with splices := target.splices ++ [(⟨a.wire, aBit⟩, ⟨b.wire, bBit⟩)] })

def customBody (circuit : Nat) (dialect : Dialect) (text : String) : BuildM Unit :=
  updateCircuit circuit (fun target =>
    {
      target with
        customBody := fun other => if other = dialect then some text else target.customBody other
    })

/-- Appends an unconnected component and returns its position. -/
def place (circuit : Nat) (kind : ComponentKind) (attributes : Attributes)
    (label : Option String) : BuildM Nat := do
  let position := ((← get).circuitAt circuit).components.length
  updateCircuit circuit (fun target =>
    {
      target with
        components :=
          target.components ++ [{ position, kind, attributes, label, connections := [] }]
    })
  return position

def primitive (circuit : Nat) (type : Primitive) (attributes : Attributes) : BuildM Nat := do
  match type.shapeFault? attributes with
  | some fault => throw (.unsupportedShape type ((← get).circuitAt circuit).name fault)
  | none => place circuit (.primitive type) attributes none

def pin (circuit : Nat) (direction : Direction) (name : String) (width : Nat) : BuildM Nat := do
  if !isSupportedWidth width then
    throw (.pinWidth name width ((← get).circuitAt circuit).name)
  place circuit (.pin direction) (Attributes.empty.set "width" (.number width)) (some name)

def clock (circuit : Nat) (attributes : Attributes) : BuildM Nat :=
  place circuit .clock attributes none

/-- Places an instance of a circuit of the same library. -/
def subcircuit (circuit : Nat) (target : CircuitRef) : BuildM Nat := do
  let library ← get
  if target.library ≠ library.tag then
    throw (.foreignCircuit target.name (library.circuitAt circuit).name)
  place circuit (.subcircuit target) .empty none

def external (circuit : Nat) (entity : ExternalEntity) : BuildM Nat :=
  place circuit (.external entity) .empty none

def unknown (circuit : Nat) (typeName : String) (ends : List EndShape) (attributes : Attributes)
    : BuildM Nat :=
  place circuit (.unknown typeName ends) attributes none

def updateComponent (circuit component : Nat) (change : Component → Component) : BuildM Unit :=
  updateCircuit circuit (fun target =>
    { target with components := target.components.modify component change })

def label (circuit component : Nat) (text : String) : BuildM Unit :=
  updateComponent circuit component (fun placed => { placed with label := some text })

def checkEnd [Arithmetic] (circuit component endIndex : Nat) : BuildM Unit :=
  check (fun library =>
    match library.componentAt? circuit component with
    | some placed => library.checkEnd circuit placed endIndex
    | none => .ok ())

/-- Attaches an end to every bit of a wire, in bit order. A wire of another width than the end is
accepted here and refused when the circuit is analyzed.
-/
def connect [Arithmetic] (circuit component endIndex : Nat) (wire : WireId) : BuildM Unit := do
  checkEnd circuit component endIndex
  check (fun library => library.checkWire circuit wire)
  updateComponent circuit component (fun placed => placed.attach endIndex (.wire wire.wire))

/-- Attaches each bit of an end to one wire bit or leaves it unconnected. -/
def connectBits [Arithmetic] (circuit component endIndex : Nat)
    (bits : List (Option (WireId × Nat)))
    : BuildM Unit := do
  checkEnd circuit component endIndex
  check (fun library =>
    bits.forM (fun bit =>
      match bit with
      | some (wire, position) => library.checkWireBit circuit wire position
      | none => .ok ()))
  updateComponent circuit component (fun placed =>
    placed.attach endIndex
      (.bits (bits.map (fun bit => bit.map (fun target => ⟨target.1.wire, target.2⟩)))))

end Build

end SchematicHdl
