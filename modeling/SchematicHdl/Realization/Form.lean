import SchematicHdl.Clock
import SchematicHdl.Hdl.Unit

/-! The form of a component: how its definition is called and declared, and where the actuals of
its ports come from when it is instantiated.
-/

namespace SchematicHdl

open Hdl (Architecture Bit DesignUnit Expr PortDecl Width)

/-- Where the actual of a port comes from. -/
inductive PortSource where
  /-- The whole of one component end. -/
  | whole (endIndex : Nat)
  /-- Bit `i` of the port is the single bit of the `i`th end. -/
  | bitwise (ends : List Nat)
  /-- The clock that feeds a clock end. -/
  | clockOf (endIndex : Nat)
  /-- The tick that belongs to a clock end. -/
  | tickOf (endIndex : Nat)
  /-- The range of the instance on a bubble bus of its parent. -/
  | bubbles (bus : Direction)
  | fixed (expr : Expr)
deriving Repr

/-- A port of a definition. -/
structure Port where
  name : String
  /-- Width in the configuration at hand. -/
  width : Nat
  /-- Width as it is declared. -/
  declared : Width
  source : PortSource
  /-- What unconnected input bits are tied to. -/
  tie : Bit
deriving Repr

namespace Port

/-- A port declared with its own width, tied to zero. -/
def plain (name : String) (width : Nat) (source : PortSource) : Port :=
  { name, width, declared := .fixed width, source, tie := .zero }

/-- Declares the port through a generic where it is wider than one bit. -/
def sizedBy (port : Port) (generic : String) : Port :=
  { port with declared := .sized port.width generic }

def tiedTo (port : Port) (bit : Bit) : Port := { port with tie := bit }

def declaration (port : Port) (direction : Direction) : PortDecl :=
  ⟨port.name, direction, port.declared⟩

end Port

/-- What a component looks like from outside. -/
structure Form where
  /-- Name of the definition. Components whose names and origins agree share one definition. -/
  name : String
  /-- What the name was derived from. -/
  origin : String
  /-- Start of the labels of unlabelled instances. -/
  labelStem : String
  /-- Directory of the emitted file. -/
  directory : String
  inputs : List Port
  outputs : List Port
  inouts : List Port
  /-- Generics with their values. -/
  parameters : List (String × Nat)
deriving Repr

namespace Form

/-- Ports that can drive a net. -/
def drivingPorts (form : Form) : List Port := form.outputs ++ form.inouts

def ports (form : Form) : List Port := form.inputs ++ form.drivingPorts

/-- The complete definition with a given architecture. -/
def unit (form : Form) (architecture : Architecture) : DesignUnit :=
  {
    name := form.name,
    generics := form.parameters.map Prod.fst,
    ports :=
      form.inputs.map (fun port => port.declaration .input)
        ++ form.outputs.map (fun port => port.declaration .output)
        ++ form.inouts.map (fun port => port.declaration .inout),
    architecture
  }

end Form

/-- The generic that sizes data ports. -/
def dataWidthGeneric : String := "NrOfBits"

/-- The data width generic with its value; one bit needs none. -/
def dataWidthParameters (width : Nat) : List (String × Nat) :=
  if width > 1 then [(dataWidthGeneric, width)] else []

/-- Declared width of a data signal. -/
def dataWidth (width : Nat) : Width := .sized width dataWidthGeneric

end SchematicHdl
