import SchematicHdl.Dialect
import SchematicHdl.Schematic.Primitive

/-! Schematics: circuits made of wires and placed components, and the library that holds the
circuits and the externally described entities of a design. Wires that touch are joined; single
wire bits that a splitter ties together are spliced.
-/

namespace SchematicHdl

/-- One bit of a wire of the circuit at hand. -/
structure WireBit where
  wire : Nat
  bit : Nat
deriving DecidableEq, Repr

/-- What one end of a component is attached to. -/
inductive Connection where
  | wire (wire : Nat)
  /-- One entry per end bit, least significant bit first. -/
  | bits (bits : List (Option WireBit))
deriving DecidableEq, Repr

structure EntityPort where
  name : String
  direction : Direction
  width : Nat
deriving DecidableEq, Repr

/-- A component that is described directly in an output language. Only the dialect that its body
is written in can generate it.
-/
structure ExternalEntity where
  /-- Position in the library. -/
  position : Nat
  name : String
  dialect : Dialect
  ports : List EntityPort
  body : String
deriving DecidableEq, Repr

/-- A circuit, named from elsewhere: the library that holds it, its position there and its
name.
-/
structure CircuitRef where
  library : Nat
  position : Nat
  name : String
deriving DecidableEq, Repr

inductive ComponentKind where
  | primitive (type : Primitive)
  /-- A boundary pin of the enclosing circuit. An input pin drives its net. -/
  | pin (direction : Direction)
  | clock
  | subcircuit (target : CircuitRef)
  | external (entity : ExternalEntity)
  /-- A component with a known shape that no output language can express. -/
  | unknown (typeName : String) (ends : List EndShape)
deriving DecidableEq, Repr

/-- A component placed in a circuit. -/
structure Component where
  /-- Position in its circuit. -/
  position : Nat
  kind : ComponentKind
  attributes : Attributes
  label : Option String
  /-- Attached ends; an end that is not listed is unconnected. -/
  connections : List (Nat × Connection)
deriving DecidableEq, Repr

namespace Component

def isPin (component : Component) : Bool :=
  match component.kind with
  | .pin _ => true
  | _ => false

/-- The type name shown in messages. -/
def typeName (component : Component) : String :=
  match component.kind with
  | .primitive type => type.name
  | .pin .input => "Input Pin"
  | .pin .output => "Output Pin"
  | .pin .inout => "Inout Pin"
  | .clock => "Clock"
  | .subcircuit target => "Circuit \"" ++ target.name ++ "\""
  | .external entity => "Entity \"" ++ entity.name ++ "\""
  | .unknown typeName _ => typeName

/-- The label, unless it is blank. -/
def title? (component : Component) : Option String :=
  match component.label with
  | some label => if Text.isAllBlank label then none else some label
  | none => none

/-- Type name with the title, or with the position where there is no title. -/
def describe (component : Component) : String :=
  match component.title? with
  | some title => component.typeName ++ " \"" ++ title ++ "\""
  | none => component.typeName ++ " #" ++ toString component.position

def connection? (component : Component) (endIndex : Nat) : Option Connection :=
  component.connections.lookup endIndex

/-- Attaches one end, replacing what it was attached to. -/
def attach (component : Component) (endIndex : Nat) (connection : Connection) : Component :=
  { component with connections := (endIndex, connection) :: component.connections }

end Component

structure Circuit where
  /-- Position in its library. -/
  position : Nat
  name : String
  /-- Width of each wire. -/
  wires : List Nat
  joins : List (Nat × Nat)
  splices : List (WireBit × WireBit)
  components : List Component
  /-- A hand-written architecture that stands in for the generated one. -/
  customBody : Dialect → Option String

namespace Circuit

def empty (position : Nat) (name : String) : Circuit :=
  {
    position,
    name,
    wires := [],
    joins := [],
    splices := [],
    components := [],
    customBody := fun _ => none
  }

/-- Boundary pins in placement order. -/
def pins (circuit : Circuit) : List Component := circuit.components.filter Component.isPin

/-- The ends that an instance of the circuit has: one per pin, in pin order. -/
def instanceEnds (circuit : Circuit) : List EndShape :=
  circuit.components.filterMap (fun component =>
    match component.kind with
    | .pin direction => some ⟨direction, component.attributes.width⟩
    | _ => none)

end Circuit

/-- The circuits and entities of a design, each at its position. -/
structure Library where
  /-- Tells libraries apart that exist at the same time. -/
  tag : Nat
  circuits : List Circuit
  entities : List ExternalEntity

namespace Library

def empty (tag : Nat) : Library := ⟨tag, [], []⟩

def circuit? (library : Library) (position : Nat) : Option Circuit := library.circuits[position]?

/-- The circuit at a position; an empty circuit where there is none. -/
def circuitAt (library : Library) (position : Nat) : Circuit :=
  (library.circuit? position).getD (.empty position "")

def find? (library : Library) (name : String) : Option Circuit :=
  library.circuits.find? (fun circuit => circuit.name = name)

def componentAt? (library : Library) (circuit component : Nat) : Option Component :=
  (library.circuitAt circuit).components[component]?

/-- A pin drives its net where it brings a signal in. -/
def pinEnd (direction : Direction) (width : Nat) : EndShape :=
  match direction with
  | .input => .output width
  | .output => .input width
  | .inout => ⟨.inout, width⟩

/-- The ends of a component, in connection order. The ends of an instance follow the pins that
its circuit has so far.
-/
def ends (library : Library) (component : Component) : List EndShape :=
  match component.kind with
  | .primitive type => type.ends component.attributes
  | .pin direction => [pinEnd direction component.attributes.width]
  | .clock => [.output 1]
  | .subcircuit target => (library.circuitAt target.position).instanceEnds
  | .external entity => entity.ports.map (fun port => ⟨port.direction, port.width⟩)
  | .unknown _ ends => ends

/-- Lays out the ends of a component, which breaks off where a primitive cannot count its ends. -/
def layOut [Arithmetic] (library : Library) (component : Component)
    : Except Overflow (List EndShape) :=
  match component.kind with
  | .primitive type => type.layOut component.attributes
  | _ => .ok (library.ends component)

end Library

end SchematicHdl
