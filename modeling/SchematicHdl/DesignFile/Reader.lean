import SchematicHdl.DesignFile.Basic
import SchematicHdl.Json.Reader

/-! Reading a design file from JSON. Every object with fixed members may also be written as a list
of its members in order of declaration; unknown and repeated members are refused.
-/

namespace SchematicHdl

namespace Json

/-- No two members have the same name. -/
def namesDistinct : List (String × Json) → Bool
  | [] => true
  | (name, _) :: rest => rest.all (fun field => field.1 ≠ name) && namesDistinct rest

/-- The members of an object with the declared names, in order of declaration; `none` stands for a
member that is left out.
-/
def members? (names : List String) : Json → Option (List (Option Json))
  | .record fields =>
      if fields.all (fun field => names.contains field.1) && namesDistinct fields then
        some (names.map (fun name => fields.lookup name))
      else none
  | .list items =>
      if items.length ≤ names.length then
        some (items.map some ++ List.replicate (names.length - items.length) none)
      else none
  | _ => none

/-- A member that has to be there. -/
def required? {α : Type} (read : Json → Option α) (member : Option Json) : Option α :=
  member.bind read

/-- A member that may be left out. -/
def defaulted? {α : Type} (default : α) (read : Json → Option α) : Option Json → Option α
  | none => some default
  | some value => read value

/-- A value that may be null. -/
def nullable? {α : Type} (read : Json → Option α) : Json → Option (Option α)
  | .null => some none
  | value => (read value).map some

/-- A member that may be left out or null. -/
def optional? {α : Type} (read : Json → Option α) (member : Option Json) : Option (Option α) :=
  defaulted? none (nullable? read) member

/-- A number of at most 32 bits. -/
def asWidth? : Json → Option Nat := asNumberBelow? (Nat.pow 2 32)

/-- A number of at most 64 bits. -/
def asIndex? : Json → Option Nat := asNumberBelow? numberLimit

/-- One of a set of names; it may also be written as an object with the name and null. -/
def asChoice? {α : Type} (ofName? : String → Option α) : Json → Option α
  | .text name => ofName? name
  | .record [(name, .null)] => ofName? name
  | _ => none

/-- A list of exactly two items. -/
def asPair? {α : Type} (read : Json → Option α) : Json → Option (α × α)
  | .list [first, second] => do return (← read first, ← read second)
  | _ => none

end Json

open Json (members? required? defaulted? optional? asWidth? asIndex? asChoice?)

def AttributeValue.ofJson? : Json → Option AttributeValue
  | .flag value => some (.flag value)
  | .number value => some (.number value)
  | .text value => some (.text value)
  | _ => none

/-- Attributes from an object; the last member of a name counts. -/
def Attributes.ofJson? (value : Json) : Option Attributes := do
  let entries ←
    (← value.asRecord?).mapM (fun field => (AttributeValue.ofJson? field.2).map (field.1, ·))
  return .ofList entries

def WireBit.ofJson? (value : Json) : Option WireBit := do
  match ← members? ["wire", "bit"] value with
  | [wire, bit] => return ⟨← required? asIndex? wire, ← required? asWidth? bit⟩
  | _ => none

def EntityPort.ofJson? (value : Json) : Option EntityPort := do
  match ← members? ["name", "direction", "width"] value with
  | [name, direction, width] =>
      return {
        name := ← required? Json.asText? name,
        direction := ← required? (asChoice? Direction.ofName?) direction,
        width := ← required? asWidth? width
      }
  | _ => none

/-- A whole wire by its number, or single bits. Members other than `bits` do not count. -/
def Connection.ofJson? : Json → Option Connection
  | .number index => some (.wire index)
  | .record fields =>
      match fields.filter (fun field => field.1 = "bits") with
      | [(_, entries)] =>
          (entries.asListOf? (Json.nullable? WireBit.ofJson?)).map Connection.bits
      | _ => none
  | _ => none

def customBodies? (value : Json) : Option (List (Dialect × String)) := do
  (← value.asRecord?).mapM (fun field => do
    return (← Dialect.ofShortName? field.1, ← field.2.asText?))

namespace ComponentEntry

def memberNames : List String :=
  ["type", "label", "attributes", "connections", "circuit", "entity", "width", "ends"]

def ofJson? (value : Json) : Option ComponentEntry := do
  match ← members? memberNames value with
  | [type, label, attributes, connections, circuit, entity, width, ends] =>
      return {
        type := ← required? Json.asText? type,
        label := ← optional? Json.asText? label,
        attributes := ← defaulted? Attributes.empty Attributes.ofJson? attributes,
        connections :=
          ← defaulted? [] (Json.asListOf? (Json.nullable? Connection.ofJson?)) connections,
        circuit := ← optional? Json.asText? circuit,
        entity := ← optional? Json.asText? entity,
        width := ← optional? asWidth? width,
        ends := ← optional? (Json.asListOf? EntityPort.ofJson?) ends
      }
  | _ => none

end ComponentEntry

namespace CircuitEntry

def memberNames : List String :=
  ["name", "wires", "joins", "splices", "components", "custom_bodies"]

def ofJson? (value : Json) : Option CircuitEntry := do
  match ← members? memberNames value with
  | [name, wires, joins, splices, components, bodies] =>
      return {
        name := ← required? Json.asText? name,
        wires := ← defaulted? [] (Json.asListOf? asWidth?) wires,
        joins := ← defaulted? [] (Json.asListOf? (Json.asPair? asIndex?)) joins,
        splices := ← defaulted? [] (Json.asListOf? (Json.asPair? WireBit.ofJson?)) splices,
        components := ← defaulted? [] (Json.asListOf? ComponentEntry.ofJson?) components,
        customBodies := ← defaulted? [] customBodies? bodies
      }
  | _ => none

end CircuitEntry

def EntityEntry.ofJson? (value : Json) : Option EntityEntry := do
  match ← members? ["name", "dialect", "ports", "body"] value with
  | [name, dialect, ports, body] =>
      return {
        name := ← required? Json.asText? name,
        dialect := ← required? (asChoice? Dialect.ofShortName?) dialect,
        ports := ← defaulted? [] (Json.asListOf? EntityPort.ofJson?) ports,
        body := ← defaulted? "" Json.asText? body
      }
  | _ => none

namespace DesignFile

def ofJson? (value : Json) : Option DesignFile := do
  match ← members? ["top", "circuits", "entities"] value with
  | [top, circuits, entities] =>
      return {
        top := ← required? Json.asText? top,
        circuits := ← required? (Json.asListOf? CircuitEntry.ofJson?) circuits,
        entities := ← defaulted? [] (Json.asListOf? EntityEntry.ofJson?) entities
      }
  | _ => none

/-- The design file that a text holds. -/
def read (text : String) : Except LoadError DesignFile :=
  match (Json.read? text).bind ofJson? with
  | some file => .ok file
  | none => .error .malformed

end DesignFile

end SchematicHdl
