import SchematicHdl.Schematic.Builder

/-! Design files: the circuits and entities of a design as they are written down, with names in
place of references, and the faults that such a file can have.
-/

namespace SchematicHdl

/-- An externally described entity. -/
structure EntityEntry where
  name : String
  dialect : Dialect
  ports : List EntityPort
  body : String
deriving DecidableEq, Repr

/-- A component; which of the later fields count depends on its type. -/
structure ComponentEntry where
  type : String
  label : Option String
  attributes : Attributes
  /-- One entry per end, in end order. Missing ends are unconnected. -/
  connections : List (Option Connection)
  /-- Name of the circuit that an instance stands for. -/
  circuit : Option String
  /-- Name of the entity that an instance stands for. -/
  entity : Option String
  /-- Width of a pin. -/
  width : Option Nat
  /-- Ends of a component of an unknown type. -/
  ends : Option (List EntityPort)
deriving DecidableEq, Repr

structure CircuitEntry where
  name : String
  /-- Width of each wire. -/
  wires : List Nat
  joins : List (Nat × Nat)
  splices : List (WireBit × WireBit)
  components : List ComponentEntry
  /-- Hand-written architectures; the last one for a dialect counts. -/
  customBodies : List (Dialect × String)
deriving DecidableEq, Repr

/-- Circuits may be listed in any order. -/
structure DesignFile where
  top : String
  circuits : List CircuitEntry
  entities : List EntityEntry
deriving DecidableEq, Repr

/-- The direction of a pin type. -/
def pinDirection? : String → Option Direction
  | "input_pin" => some .input
  | "output_pin" => some .output
  | "inout_pin" => some .inout
  | _ => none

/-- What a component type stands for. -/
inductive EntryKind where
  | pin (direction : Direction)
  | clock
  | circuit
  | entity
  | primitive (type : Primitive)
  | unknown
deriving DecidableEq, Repr

namespace ComponentEntry

def kind (entry : ComponentEntry) : EntryKind :=
  match pinDirection? entry.type with
  | some direction => .pin direction
  | none =>
      if entry.type = "clock" then .clock
      else if entry.type = "circuit" then .circuit
      else if entry.type = "entity" then .entity
      else
        match Primitive.ofKey? entry.type with
        | some type => .primitive type
        | none => .unknown

def isPin (entry : ComponentEntry) : Bool := (pinDirection? entry.type).isSome

end ComponentEntry

/-- A component, named by its place in the file. -/
structure EntryPlace where
  position : Nat
  type : String
  circuit : String
deriving DecidableEq, Repr

/-- Why a design file describes no design. -/
inductive DesignFault where
  | duplicateCircuit (name : String)
  | duplicateEntity (name : String)
  | portWidth (port entity : String) (width : Nat)
  | missingTop (name : String)
  | wireWidth (wire : Nat) (circuit : String) (width : Nat)
  | missingWire (wire : Nat) (circuit : String)
  | missingBit (bit wire : Nat) (circuit : String)
  | componentWidth (place : EntryPlace) (width : Nat)
  | unknownCircuit (place : EntryPlace) (name : String)
  | unknownEntity (place : EntryPlace) (name : String)
  | unsupportedShape (place : EntryPlace) (fault : ShapeFault)
  | missingEnds (place : EntryPlace)
  | excessConnections (place : EntryPlace) (connections ends : Nat)
  /-- Arithmetic left its word in a build that checks for it. -/
  | overflow (cause : Overflow)
deriving DecidableEq, Repr

def EntryPlace.text (place : EntryPlace) : String :=
  s!"component {place.position} ({place.type}) in circuit \"{place.circuit}\""

def widthText (what : String) (width : Nat) : String :=
  s!"{what} is {width} bit(s) wide, must be between {minWidth} and {maxWidth}"

def DesignFault.text : DesignFault → String
  | .duplicateCircuit name => s!"circuit \"{name}\" is defined more than once"
  | .duplicateEntity name => s!"entity \"{name}\" is defined more than once"
  | .portWidth port entity width => widthText s!"port \"{port}\" of entity \"{entity}\"" width
  | .missingTop name => s!"top circuit \"{name}\" is not defined"
  | .wireWidth wire circuit width => widthText s!"wire {wire} in circuit \"{circuit}\"" width
  | .missingWire wire circuit => s!"wire {wire} does not exist in circuit \"{circuit}\""
  | .missingBit bit wire circuit =>
      s!"bit {bit} of wire {wire} does not exist in circuit \"{circuit}\""
  | .componentWidth place width => widthText place.text width
  | .unknownCircuit place name => s!"{place.text} instantiates unknown circuit \"{name}\""
  | .unknownEntity place name => s!"{place.text} instantiates unknown entity \"{name}\""
  | .unsupportedShape place fault => s!"{place.text}: {fault.message}"
  | .missingEnds place => s!"{place.text} has an unknown type and no end layout"
  | .excessConnections place connections ends =>
      s!"{place.text} has {connections} connection(s) but only {ends} end(s)"
  | .overflow cause => cause.message

/-- Why no circuit comes out of a design file. -/
inductive LoadError where
  /-- The text is no design file. -/
  | malformed
  | invalid (fault : DesignFault)
  /-- Building the circuits went wrong although nothing was found to be wrong with the file. -/
  | misuse (cause : Misuse)
deriving DecidableEq, Repr

/-- The error that a fault leads to. A check that breaks off finds nothing wrong with the file. -/
def LoadError.ofFault : DesignFault → LoadError
  | .overflow cause => .misuse (.overflow cause)
  | fault => .invalid fault

/-- The message of a load error. What is wrong with a malformed text is not told. -/
def LoadError.message : LoadError → String
  | .malformed => "Failed to parse design"
  | .invalid fault => "Invalid design: " ++ fault.text
  | .misuse cause => cause.message

end SchematicHdl
