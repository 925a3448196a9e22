import SchematicHdl.Realization.Form
import SchematicHdl.Schematic.Primitive

/-! Logic gates, inverters and constants. They have no definition of their own: each placement
becomes assignments in the architecture of its circuit. Their form is what such a definition would
look like.
-/

namespace SchematicHdl.Gate

open Hdl (BinaryOp Expr)

/-- The end that carries the result; the inputs follow it. -/
def outputEnd : Nat := 0

/-- The ends that carry the inputs. -/
def inputEnds (type : Primitive) (attributes : Attributes) : List Nat :=
  let count :=
    match type with
    | .not => 1
    | .constant => 0
    | _ => attributes.inputCount
  (List.range count).map (· + 1)

/-- The operator of a gate, and whether its result is negated. -/
def operator : Primitive → BinaryOp × Bool
  | .or => (.or, false)
  | .xor => (.xor, false)
  | .nand => (.and, true)
  | .nor => (.or, true)
  | .xnor => (.xor, true)
  | .not => (.and, true)
  | _ => (.and, false)

/-- The operands under the operator of a gate. A single operand stands for itself. -/
def combine (type : Primitive) (operands : List Expr) : Expr :=
  let (op, negated) := operator type
  let base :=
    match operands with
    | [operand] => operand
    | _ => .binary op operands
  if negated then .not base else base

def definitionName (type : Primitive) (attributes : Attributes) : String :=
  let base := Text.raiseCase type.key
  let bus := if attributes.width > 1 then "_BUS" else ""
  match type with
  | .not => base ++ bus
  | .constant => base ++ bus
  | _ => s!"{base}_GATE_{attributes.inputCount}_INPUTS{bus}"

def form (type : Primitive) (attributes : Attributes) : Form :=
  let width := attributes.width
  {
    name := definitionName type attributes,
    origin := type.name,
    labelStem := "GATES",
    directory := "gates",
    inputs :=
      (inputEnds type attributes).map (fun endIndex =>
        .plain s!"Input_{endIndex}" width (.whole endIndex)),
    outputs := [.plain "Result" width (.whole outputEnd)],
    inouts := [],
    parameters := []
  }

end SchematicHdl.Gate
