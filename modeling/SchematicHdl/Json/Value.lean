/-! JSON values as they are written: the members of an object stay in the order of the text, and a
repeated name stays repeated, so that a reader can refuse it. Numbers are told apart only as far as
a design file needs it.
-/

namespace SchematicHdl

inductive Json where
  | null
  | flag (value : Bool)
  /-- A natural number of at most 64 bits, written without sign, fraction or exponent. -/
  | number (value : Nat)
  /-- Any other number that a double can hold; its value is not kept. -/
  | otherNumber
  | text (value : String)
  | list (items : List Json)
  | record (fields : List (String × Json))
deriving Repr, Inhabited

namespace Json

/-- One past the largest number that is kept. -/
def numberLimit : Nat := Nat.pow 2 64

def asText? : Json → Option String
  | .text value => some value
  | _ => none

/-- A natural number below `limit`. -/
def asNumberBelow? (limit : Nat) : Json → Option Nat
  | .number value => if value < limit then some value else none
  | _ => none

def asList? : Json → Option (List Json)
  | .list items => some items
  | _ => none

def asRecord? : Json → Option (List (String × Json))
  | .record fields => some fields
  | _ => none

/-- A list all of whose items can be read. -/
def asListOf? {α : Type} (read : Json → Option α) (value : Json) : Option (List α) := do
  (← value.asList?).mapM read

/-- The last member of a name. -/
def field? (value : Json) (name : String) : Option Json :=
  match value with
  | .record fields => fields.reverse.lookup name
  | _ => none

end Json

end SchematicHdl
