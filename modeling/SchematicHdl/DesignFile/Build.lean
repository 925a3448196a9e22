import SchematicHdl.DesignFile.Check
import SchematicHdl.DesignFile.Reader

/-! Building the library of a design file: all entities, then all circuits empty, then the contents
of each circuit in the order of the file.
-/

namespace SchematicHdl

/-- What the names of a design file stand for. -/
structure NameTable where
  entities : List (String × ExternalEntity)
  circuits : List (String × CircuitRef)
deriving Repr

namespace ComponentEntry

/-- Places a component without connecting it. A name that stands for nothing places nothing known;
a checked file has no such name.
-/
def place (names : NameTable) (circuit : Nat) (entry : ComponentEntry) : BuildM Nat :=
  match entry.kind with
  | .pin direction => Build.pin circuit direction (entry.label.getD "") (entry.width.getD 1)
  | .clock => Build.clock circuit entry.attributes
  | .circuit =>
      match names.circuits.lookup (entry.circuit.getD "") with
      | some target => Build.subcircuit circuit target
      | none => Build.unknown circuit entry.type [] .empty
  | .entity =>
      match names.entities.lookup (entry.entity.getD "") with
      | some entity => Build.external circuit entity
      | none => Build.unknown circuit entry.type [] .empty
  | .primitive type => Build.primitive circuit type entry.attributes
  | .unknown =>
      let ends := (entry.ends.getD []).map (fun port => ⟨port.direction, port.width⟩)
      Build.unknown circuit entry.type ends entry.attributes

def connect [Arithmetic] (circuit component endIndex : Nat) : Option Connection → BuildM Unit
  | none => return
  | some (.wire wire) => Build.connect circuit component endIndex ⟨circuit, wire⟩
  | some (.bits bits) =>
      Build.connectBits circuit component endIndex
        (bits.map (fun bit => bit.map (fun target => (⟨circuit, target.wire⟩, target.bit))))

/-- Places a component, labels it and connects it. The label of a pin is its name already. -/
def build [Arithmetic] (names : NameTable) (circuit : Nat) (entry : ComponentEntry)
    : BuildM Unit := do
  let component ← entry.place names circuit
  match entry.label with
  | some label => if !entry.isPin then Build.label circuit component label
  | none => pure ()
  entry.connections.zipIdx.forM (fun (connection, endIndex) =>
    connect circuit component endIndex connection)

end ComponentEntry

/-- Fills an empty circuit. -/
def CircuitEntry.build [Arithmetic] (names : NameTable) (entry : CircuitEntry) (circuit : Nat)
    : BuildM Unit := do
  entry.wires.forM (fun width => discard (Build.wire circuit width))
  entry.joins.forM (fun (a, b) => Build.join circuit ⟨circuit, a⟩ ⟨circuit, b⟩)
  entry.splices.forM (fun (a, b) =>
    Build.splice circuit ⟨circuit, a.wire⟩ a.bit ⟨circuit, b.wire⟩ b.bit)
  entry.components.forM (fun component => component.build names circuit)
  entry.customBodies.forM (fun (dialect, text) => Build.customBody circuit dialect text)

namespace DesignFile

/-- Builds everything in a library and returns the top circuit. -/
def build [Arithmetic] (file : DesignFile) : BuildM CircuitRef := do
  let entities ←
    file.entities.mapM (fun entry => do
      return (entry.name, ← Build.entity entry.name entry.dialect entry.ports entry.body))
  let circuits ←
    file.circuits.mapM (fun entry => do return (entry.name, ← Build.circuit entry.name))
  let names : NameTable := ⟨entities, circuits⟩
  (file.circuits.zip circuits).forM (fun (entry, (_, target)) => entry.build names target.position)
  return (circuits.lookup file.top).getD ⟨(← get).tag, 0, file.top⟩

/-- The library of a design file and its top circuit. -/
def elaborate [Arithmetic] (file : DesignFile) : Except LoadError (Library × CircuitRef) :=
  match file.check with
  | .error fault => .error (.ofFault fault)
  | .ok () =>
      match file.build.run (.empty 0) with
      | .error cause => .error (.misuse cause)
      | .ok (top, library) => .ok (library, top)

/-- The library of a design text and its top circuit. -/
def load [Arithmetic] (text : String) : Except LoadError (Library × CircuitRef) := do
  (← read text).elaborate

end DesignFile

end SchematicHdl
