import SchematicHdl.DesignFile.Basic

/-! Checking a design file before anything is built from it. The first fault in reading order is
reported.
-/

namespace SchematicHdl

namespace CircuitEntry

/-- Number of ends of an instance. -/
def pinCount (circuit : CircuitEntry) : Nat :=
  (circuit.components.filter ComponentEntry.isPin).length

def checkWire (circuit : CircuitEntry) (wire : Nat) : Except DesignFault Unit :=
  if circuit.wires.length ≤ wire then .error (.missingWire wire circuit.name) else .ok ()

def checkBit (circuit : CircuitEntry) (bit : WireBit) : Except DesignFault Unit := do
  circuit.checkWire bit.wire
  if circuit.wires.getD bit.wire 0 ≤ bit.bit then
    .error (.missingBit bit.bit bit.wire circuit.name)

def checkConnection (circuit : CircuitEntry) : Option Connection → Except DesignFault Unit
  | none => .ok ()
  | some (.wire wire) => circuit.checkWire wire
  | some (.bits bits) =>
      bits.forM (fun bit =>
        match bit with
        | some bit => circuit.checkBit bit
        | none => .ok ())

def checkWires (circuit : CircuitEntry) : Except DesignFault Unit := do
  circuit.wires.zipIdx.forM (fun (width, wire) =>
    if isSupportedWidth width then .ok () else .error (.wireWidth wire circuit.name width))
  circuit.joins.forM (fun (a, b) => do
    circuit.checkWire a
    circuit.checkWire b)
  circuit.splices.forM (fun (a, b) => do
    circuit.checkBit a
    circuit.checkBit b)

end CircuitEntry

namespace DesignFile

def findCircuit? (file : DesignFile) (name : String) : Option CircuitEntry :=
  file.circuits.find? (fun circuit => circuit.name = name)

def findEntity? (file : DesignFile) (name : String) : Option EntityEntry :=
  file.entities.find? (fun entity => entity.name = name)

/-- No circuit has the name of an earlier one. -/
def checkCircuitNames : List String → List CircuitEntry → Except DesignFault Unit
  | _, [] => .ok ()
  | earlier, circuit :: rest =>
      if earlier.contains circuit.name then .error (.duplicateCircuit circuit.name)
      else checkCircuitNames (circuit.name :: earlier) rest

def checkEntity (entity : EntityEntry) : Except DesignFault Unit :=
  entity.ports.forM (fun port =>
    if isSupportedWidth port.width then .ok ()
    else .error (.portWidth port.name entity.name port.width))

/-- No entity has the name of an earlier one, and all ports are supported. -/
def checkEntities : List String → List EntityEntry → Except DesignFault Unit
  | _, [] => .ok ()
  | earlier, entity :: rest => do
      if earlier.contains entity.name then
        throw (.duplicateEntity entity.name)
      checkEntity entity
      checkEntities (entity.name :: earlier) rest

/-- The number of ends of a component, once its type and shape are found to be in order. -/
def endCount [Arithmetic] (file : DesignFile) (place : EntryPlace) (entry : ComponentEntry)
    : Except DesignFault Nat :=
  match entry.kind with
  | .pin _ =>
      let width := entry.width.getD 1
      if isSupportedWidth width then .ok 1 else .error (.componentWidth place width)
  | .clock => .ok 1
  | .circuit =>
      let name := entry.circuit.getD ""
      match file.findCircuit? name with
      | some circuit => .ok circuit.pinCount
      | none => .error (.unknownCircuit place name)
  | .entity =>
      let name := entry.entity.getD ""
      match file.findEntity? name with
      | some entity => .ok entity.ports.length
      | none => .error (.unknownEntity place name)
  | .primitive type =>
      match type.shapeFault? entry.attributes with
      | some fault => .error (.unsupportedShape place fault)
      | none => do return (← (type.layOut entry.attributes).mapError .overflow).length
  | .unknown =>
      match entry.ends with
      | some ends => do
          ends.forM (fun port =>
            if isSupportedWidth port.width then .ok ()
            else .error (.componentWidth place port.width))
          return ends.length
      | none => .error (.missingEnds place)

def checkComponent [Arithmetic] (file : DesignFile) (circuit : CircuitEntry)
    (entry : ComponentEntry) (position : Nat) : Except DesignFault Unit := do
  let place : EntryPlace := ⟨position, entry.type, circuit.name⟩
  let count ← file.endCount place entry
  if count < entry.connections.length then
    throw (.excessConnections place entry.connections.length count)
  entry.connections.forM circuit.checkConnection

def checkCircuit [Arithmetic] (file : DesignFile) (circuit : CircuitEntry)
    : Except DesignFault Unit := do
  circuit.checkWires
  circuit.components.zipIdx.forM (fun (entry, position) =>
    file.checkComponent circuit entry position)

/-- The first fault of a design file. -/
def check [Arithmetic] (file : DesignFile) : Except DesignFault Unit := do
  checkCircuitNames [] file.circuits
  checkEntities [] file.entities
  if (file.findCircuit? file.top).isNone then
    throw (.missingTop file.top)
  file.circuits.forM file.checkCircuit

end DesignFile

end SchematicHdl
