import SchematicHdl.Realization.Form
import SchematicHdl.Schematic.Primitive

/-! Registers that take over their data input on the rising edge of their clock. -/

namespace SchematicHdl.Register

open Hdl (Architecture)

/-- The signal that holds the value. -/
def stateName : String := "s_state_reg"

def form (attributes : Attributes) : Form :=
  let width := attributes.width
  {
    name := if width > 1 then "Register_bus" else "Register_bit",
    origin := "Register",
    labelStem := "REGISTER_FILE",
    directory := "memory",
    inputs := [
      .plain "Reset" 1 (.whole Primitive.registerReset),
      (Port.plain "Enable" 1 (.whole Primitive.registerEnable)).tiedTo .one,
      .plain "Tick" 1 (.tickOf Primitive.registerClock),
      .plain "Clock" 1 (.clockOf Primitive.registerClock),
      (Port.plain "D" width (.whole Primitive.registerData)).sizedBy dataWidthGeneric
    ],
    outputs := [(Port.plain "Q" width (.whole Primitive.registerOutput)).sizedBy dataWidthGeneric],
    inouts := [],
    parameters := dataWidthParameters width
  }

def architecture (attributes : Attributes) : Architecture :=
  let width := dataWidth attributes.width
  {
    signals := [⟨stateName, width, .reg⟩],
    statements := [
      .register {
        target := stateName,
        width,
        clock := "Clock",
        reset := "Reset",
        tick := "Tick",
        enable := "Enable",
        next := .ref "D"
      },
      .assign (.ref "Q") (.ref stateName)
    ]
  }

end SchematicHdl.Register
