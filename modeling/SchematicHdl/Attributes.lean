/-! The configuration of a placed component: named values with a default for each missing name,
so that the empty configuration describes the smallest shape of every component type.
-/

namespace SchematicHdl

inductive AttributeValue where
  | flag (value : Bool)
  | number (value : Nat)
  | text (value : String)
deriving DecidableEq, Repr

/-- The value as it is shown in messages; a text stands between quotes, unescaped. -/
def AttributeValue.display : AttributeValue → String
  | .flag value => if value then "true" else "false"
  | .number value => toString value
  | .text value => "\"" ++ value ++ "\""

/-- What a selecting component drives onto its outputs while its enable input is low. -/
inductive DisabledPolicy where
  | zero
  | floating
deriving DecidableEq, Repr

/-- Named values, in ascending order of their names, each name at most once. -/
structure Attributes where
  entries : List (String × AttributeValue)
deriving DecidableEq, Repr

namespace Attributes

def empty : Attributes := ⟨[]⟩

/-- Puts an entry in its place among entries in ascending order of names, replacing the entry
that had its name. -/
def insertEntry (name : String) (value : AttributeValue)
    : List (String × AttributeValue) → List (String × AttributeValue)
  | [] => [(name, value)]
  | (other, kept) :: rest =>
      if name < other then (name, value) :: (other, kept) :: rest
      else if name = other then (name, value) :: rest
      else (other, kept) :: insertEntry name value rest

def set (attributes : Attributes) (name : String) (value : AttributeValue) : Attributes :=
  ⟨insertEntry name value attributes.entries⟩

/-- The entries of a list; the last entry of a name counts. -/
def ofList (entries : List (String × AttributeValue)) : Attributes :=
  entries.foldl (fun attributes entry => attributes.set entry.1 entry.2) empty

def get? (attributes : Attributes) (name : String) : Option AttributeValue :=
  attributes.entries.lookup name

/-- A numeric attribute. A flag counts as 0 or 1; a text counts as missing. -/
def number (attributes : Attributes) (name : String) (default : Nat) : Nat :=
  match attributes.get? name with
  | some (.number value) => value
  | some (.flag value) => value.toNat
  | _ => default

/-- A truth-valued attribute. A number counts as true unless it is 0; a text counts as false. -/
def flag (attributes : Attributes) (name : String) : Bool :=
  match attributes.get? name with
  | some (.flag value) => value
  | some (.number value) => value ≠ 0
  | _ => false

def text? (attributes : Attributes) (name : String) : Option String :=
  match attributes.get? name with
  | some (.text value) => some value
  | _ => none

/-- Widths are kept in 32 bits. -/
def widthLimit : Nat := Nat.pow 2 32

/-- Data width in bits. -/
def width (attributes : Attributes) : Nat := attributes.number "width" 1 % widthLimit

/-- Width of the select input in bits. -/
def selectBits (attributes : Attributes) : Nat := attributes.number "select" 1 % widthLimit

def hasEnable (attributes : Attributes) : Bool := attributes.flag "enable"

def isTristate (attributes : Attributes) : Bool := attributes.flag "tristate"

def disabledPolicy (attributes : Attributes) : DisabledPolicy :=
  if attributes.text? "disabled" = some "floating" then .floating else .zero

/-- Number of data inputs. -/
def inputCount (attributes : Attributes) : Nat := attributes.number "inputs" 2

/-- Value of a constant. -/
def constantValue (attributes : Attributes) : Nat := attributes.number "value" 0

/-- All entries, for messages. -/
def summary (attributes : Attributes) : String :=
  if attributes.entries.isEmpty then
    "no attributes"
  else
    ", ".intercalate (attributes.entries.map (fun entry => entry.1 ++ "=" ++ entry.2.display))

end Attributes

end SchematicHdl
