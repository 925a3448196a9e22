import Mathlib.Logic.Function.Basic
import SchematicHdl.Identifier
import SchematicHdl.Netlist.Basic
import SchematicHdl.Schematic.Circuit

/-! Circuits at other positions of a library. Only references to circuits tell where a circuit
stands; what a component is called and what its ends are stays the same.
-/

namespace SchematicHdl

-----------------------------------------------------------------------------------------
-- Moved references
-----------------------------------------------------------------------------------------

/-- The reference to where the circuit is moved. -/
def CircuitRef.moved (shift : Nat → Nat) (target : CircuitRef) : CircuitRef :=
  { target with position := shift target.position }

def ComponentKind.moved (shift : Nat → Nat) : ComponentKind → ComponentKind
  | .subcircuit target => .subcircuit (target.moved shift)
  | kind => kind

def Component.moved (shift : Nat → Nat) (component : Component) : Component :=
  { component with kind := component.kind.moved shift }

/-- The circuit with all circuits that it refers to, itself included, at other positions. -/
def Circuit.moved (shift : Nat → Nat) (circuit : Circuit) : Circuit :=
  {
    circuit with
      position := shift circuit.position,
      components := circuit.components.map (Component.moved shift)
  }

variable {shift : Nat → Nat}

namespace Component

variable (component : Component)

@[simp]
theorem position_moved : (component.moved shift).position = component.position := rfl

@[simp]
theorem kind_moved : (component.moved shift).kind = component.kind.moved shift := rfl

@[simp]
theorem attributes_moved : (component.moved shift).attributes = component.attributes := rfl

@[simp]
theorem label_moved : (component.moved shift).label = component.label := rfl

@[simp]
theorem isPin_moved : (component.moved shift).isPin = component.isPin := by
  unfold isPin moved
  cases component.kind <;> rfl

@[simp]
theorem category_moved : (component.moved shift).category = component.category := by
  unfold category moved
  cases component.kind <;> rfl

@[simp]
theorem typeName_moved : (component.moved shift).typeName = component.typeName := by
  unfold typeName moved
  cases component.kind <;> rfl

@[simp]
theorem title?_moved : (component.moved shift).title? = component.title? := rfl

@[simp]
theorem describe_moved : (component.moved shift).describe = component.describe := by
  simp only [describe, title?_moved, typeName_moved]
  rfl

end Component

@[simp]
theorem Circuit.name_moved (circuit : Circuit) : (circuit.moved shift).name = circuit.name := rfl

theorem Circuit.instanceEnds_moved (circuit : Circuit)
    : (circuit.moved shift).instanceEnds = circuit.instanceEnds := by
  unfold instanceEnds moved
  rw [List.filterMap_map]
  congr
  funext component
  unfold Function.comp Component.moved
  cases component.kind <;> rfl

-----------------------------------------------------------------------------------------
-- Moved libraries
-----------------------------------------------------------------------------------------

/-- The other library holds the same circuits elsewhere, as far as they are reached, under names
that do not depend on where they stand.
-/
structure Library.Moves (library other : Library) (shift : Nat → Nat) (reached : Nat → Prop)
    : Prop where
  injective : Function.Injective shift
  inside : ∀ position, reached position → position < library.circuits.length
  movedInside : ∀ position, reached position → shift position < other.circuits.length
  circuitAt
    : ∀ position,
        reached position
        → other.circuitAt (shift position) = (library.circuitAt position).moved shift
  named
    : ∀ position, reached position → Identifier.isValid (library.circuitAt position).name = true
  /-- What a reached circuit instantiates is reached. -/
  closed
    : ∀ position,
        reached position
        → ∀ component ∈ (library.circuitAt position).components,
          ∀ target, component.kind = .subcircuit target → reached target.position

/-- Moved components have the same ends. -/
theorem Library.Moves.ends_moved {library other : Library} {reached : Nat → Prop}
    (moves : library.Moves other shift reached) {component : Component}
    (known : ∀ target, component.kind = .subcircuit target → reached target.position)
    : other.ends (component.moved shift) = library.ends component := by
  unfold ends Component.moved
  cases kind : component.kind with
  | subcircuit target =>
      show (other.circuitAt (shift target.position)).instanceEnds = _
      rw [moves.circuitAt _ (known target kind), Circuit.instanceEnds_moved]
  | primitive | pin | clock | external | unknown => rfl

theorem Library.Moves.layOut_moved [Arithmetic] {library other : Library} {reached : Nat → Prop}
    (moves : library.Moves other shift reached) {component : Component}
    (known : ∀ target, component.kind = .subcircuit target → reached target.position)
    : other.layOut (component.moved shift) = library.layOut component := by
  unfold layOut
  rw [moves.ends_moved known]
  unfold Component.moved
  cases component.kind <;> rfl

end SchematicHdl
