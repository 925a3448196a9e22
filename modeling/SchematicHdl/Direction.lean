/-! Directions of component ends and of ports. -/

namespace SchematicHdl

/-- Which way a signal passes through an end, seen from the component that has the end. -/
inductive Direction where
  | input
  | output
  | inout
deriving DecidableEq, Repr

namespace Direction

def all : List Direction := [.input, .output, .inout]

def name : Direction → String
  | .input => "input"
  | .output => "output"
  | .inout => "inout"

def ofName? : String → Option Direction
  | "input" => some .input
  | "output" => some .output
  | "inout" => some .inout
  | _ => none

/-- The end takes its value from the net it is connected to. -/
def reads : Direction → Bool
  | .input => true
  | .output => false
  | .inout => true

/-- The end gives a value to the net it is connected to. -/
def drives : Direction → Bool
  | .input => false
  | .output => true
  | .inout => true

end Direction

end SchematicHdl
