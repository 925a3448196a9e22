import SchematicHdl.Netlist.Basic
import SchematicHdl.Realization.Form

/-! Circuits as components of other circuits. The ports come in a fixed order: clock trees, the
global clock, bubble busses and then the named boundary pins in pin order.
-/

namespace SchematicHdl.Netlist

/-- The bubble bus port, unless the bus is empty. -/
def bubblePorts (netlist : Netlist) (bus : Direction) : List Port :=
  let count := netlist.bubbles.get bus
  if count = 0 then [] else [.plain (bubblePort bus) count (.bubbles bus)]

/-- The ports of the named pins of one direction. -/
def pinPorts (netlist : Netlist) (direction : Direction) : List Port :=
  netlist.pins.zipIdx.filterMap (fun (pin, endIndex) =>
    if pin.category = .pin direction then
      pin.portName.map (fun name =>
        .plain name ((pin.end? 0).elim 1 ResolvedEnd.width) (.whole endIndex))
    else none)

/-- The port of a signal that has the same name in the circuit and in its parents. -/
def sharedPort (name : String) (width : Nat) : Port := .plain name width (.fixed (.ref name))

def form (netlist : Netlist) (mode : ClockMode) : Form :=
  {
    name := netlist.name,
    origin := s!"circuit \"{netlist.circuit.name}\"",
    labelStem := "SUBCIRCUIT",
    directory := "circuit",
    inputs :=
      netlist.clockTrees.map (fun tree => sharedPort (clockTreeName tree) clockTreeWidth)
        ++ (if netlist.needsGlobalClock mode then [sharedPort globalClockName 1] else [])
        ++ netlist.bubblePorts .input ++ netlist.pinPorts .input,
    outputs := netlist.bubblePorts .output ++ netlist.pinPorts .output,
    inouts := netlist.bubblePorts .inout,
    parameters := []
  }

/-- An inout pin can only be reached through the inout bubble bus, so a circuit with a connected
one cannot be generated.
-/
def isRealizable (netlist : Netlist) : Bool :=
  !netlist.pins.any (fun pin => pin.category = .pin .inout && pin.portName.isSome)

end SchematicHdl.Netlist
