import SchematicHdl.Json.Token

/-! Reading a JSON text. The containers that are still open stand on a stack, innermost first, and
each token moves the reader on by one step. A text is refused where containers are nested deeper
than `depthLimit`.
-/

namespace SchematicHdl.Json

/-- A container that is still open; its members are kept newest first. -/
inductive Frame where
  | list (items : List Json)
  /-- `name` is the name of the member whose value has to follow. -/
  | record (fields : List (String × Json)) (name : String)
deriving Repr

/-- What may come next. -/
inductive Expected where
  | value
  | valueOrEnd
  | commaOrEnd
  | nameOrEnd
  | name
  | colon
  | nothing (result : Json)
deriving Repr

structure Reader where
  stack : List Frame
  expected : Expected
deriving Repr

def depthLimit : Nat := 127

namespace Reader

def start : Reader := ⟨[], .value⟩

/-- Puts a complete value where it belongs. -/
def place (value : Json) : List Frame → Reader
  | [] => ⟨[], .nothing value⟩
  | .list items :: rest => ⟨.list (value :: items) :: rest, .commaOrEnd⟩
  | .record fields name :: rest => ⟨.record ((name, value) :: fields) name :: rest, .commaOrEnd⟩

/-- Opens a container where a value may come. -/
def enter? (reader : Reader) (frame : Frame) (expected : Expected) : Option Reader :=
  if reader.stack.length < depthLimit then some ⟨frame :: reader.stack, expected⟩ else none

def acceptsValue : Expected → Bool
  | .value => true
  | .valueOrEnd => true
  | _ => false

def step? (reader : Reader) : Token → Option Reader
  | .openList =>
      if acceptsValue reader.expected then reader.enter? (.list []) .valueOrEnd else none
  | .openRecord =>
      if acceptsValue reader.expected then reader.enter? (.record [] "") .nameOrEnd else none
  | .closeList =>
      match reader.expected, reader.stack with
      | .valueOrEnd, .list items :: rest => some (place (.list items.reverse) rest)
      | .commaOrEnd, .list items :: rest => some (place (.list items.reverse) rest)
      | _, _ => none
  | .closeRecord =>
      match reader.expected, reader.stack with
      | .nameOrEnd, .record fields _ :: rest => some (place (.record fields.reverse) rest)
      | .commaOrEnd, .record fields _ :: rest => some (place (.record fields.reverse) rest)
      | _, _ => none
  | .comma =>
      match reader.expected, reader.stack with
      | .commaOrEnd, .list items :: rest => some ⟨.list items :: rest, .value⟩
      | .commaOrEnd, .record fields name :: rest => some ⟨.record fields name :: rest, .name⟩
      | _, _ => none
  | .colon =>
      match reader.expected with
      | .colon => some ⟨reader.stack, .value⟩
      | _ => none
  | .scalar value =>
      match reader.expected, reader.stack, value with
      | .value, stack, _ => some (place value stack)
      | .valueOrEnd, stack, _ => some (place value stack)
      | .nameOrEnd, .record fields _ :: rest, .text name =>
          some ⟨.record fields name :: rest, .colon⟩
      | .name, .record fields _ :: rest, .text name =>
          some ⟨.record fields name :: rest, .colon⟩
      | _, _, _ => none

end Reader

/-- The value that a text holds, if it holds exactly one. -/
def read? (text : String) : Option Json := do
  let reader ← (← tokens? text.toList).foldlM Reader.step? Reader.start
  match reader.expected with
  | .nothing result => some result
  | _ => none

end SchematicHdl.Json
