import SchematicHdl.Proofs.DesignFile.Checked

/-! Filling the circuits of a checked design file. What the file lists is there as far as it has
been followed, so a step can only go wrong where it connects an end of an instance whose pin is
listed later.
-/

namespace SchematicHdl

open Outcome

-----------------------------------------------------------------------------------------
-- Changing one circuit
-----------------------------------------------------------------------------------------

/-- An instance has one end for each pin, by induction on the components. -/
theorem Circuit.instanceEnds_length (circuit : Circuit)
    : circuit.instanceEnds.length = circuit.components.countP Component.isPin := by
  unfold instanceEnds
  generalize circuit.components = components
  induction components with
  | nil => rfl
  | cons component rest ih =>
      rw [List.filterMap_cons, List.countP_cons]
      cases kind : component.kind <;> simp [Component.isPin, kind, ih]

namespace Library

/-- The library with a change of one circuit. -/
def changed (library : Library) (circuit : Nat) (change : Circuit → Circuit) : Library :=
  { library with circuits := library.circuits.modify circuit change }

theorem circuitAt_changed {library : Library} {circuit : Nat}
    (inside : circuit < library.circuits.length) (change : Circuit → Circuit) (i : Nat)
    : (library.changed circuit change).circuitAt i
      = if i = circuit then change (library.circuitAt circuit) else library.circuitAt i := by
  simp only [circuitAt, circuit?, changed, List.getElem?_modify]
  by_cases here : i = circuit
  · subst here
    simp [List.getElem?_eq_getElem inside]
  · simp [here, Ne.symm here]

end Library

-----------------------------------------------------------------------------------------
-- How far a file is followed
-----------------------------------------------------------------------------------------

namespace DesignFile

/-- The position of the circuit with a name. -/
def positionOf (file : DesignFile) (name : String) : Nat :=
  file.circuits.findIdx (fun circuit => circuit.name = name)

/-- What the name of a circuit stands for. -/
def refOf (file : DesignFile) (name : String) : CircuitRef := ⟨0, file.positionOf name, name⟩

/-- The pins that a circuit has when some components of another one are placed: all of its pins if
it is listed earlier, those among the placed components if it is that circuit, and none otherwise.
-/
def placedPins (file : DesignFile) (circuit placed position : Nat) : Nat :=
  match file.circuits[position]? with
  | some entry =>
      if position < circuit then entry.pinCount
      else if position = circuit then (entry.components.take placed).countP ComponentEntry.isPin
      else 0
  | none => 0

/-- An end of an instance is connected before its pin is placed. -/
structure ConnectsEarly (file : DesignFile) (circuit position endIndex : Nat)
    (entry : CircuitEntry) (component : ComponentEntry)
    : Prop where
  listed : file.circuits[circuit]? = some entry
  placed : entry.components[position]? = some component
  kind : component.kind = .circuit
  connected : ∃ connection, component.connections[endIndex]? = some (some connection)
  early
    : file.placedPins circuit (position + 1) (file.positionOf (component.circuit.getD ""))
      ≤ endIndex

/-- A component is an instance of a circuit as the entry describes it. -/
structure Instantiates (file : DesignFile) (entry : ComponentEntry) (position : Nat)
    (component : Component)
    : Prop where
  kind : component.kind = .subcircuit (file.refOf (entry.circuit.getD ""))
  position_eq : component.position = position
  label : component.label = entry.label

/-- A misuse that names an end of an instance which is connected before its pin is placed. -/
inductive EarlyMisuse (file : DesignFile) : Misuse → Prop
  | connect {circuit position endIndex : Nat} {entry : CircuitEntry} {component : ComponentEntry}
    {placed : Component} (early : file.ConnectsEarly circuit position endIndex entry component)
    (instantiates : file.Instantiates component position placed)
    : EarlyMisuse file
        (.noSuchEnd endIndex placed.describe entry.name
          (file.placedPins circuit (position + 1)
            (file.positionOf (component.circuit.getD ""))))

/-- How far a library follows a file: the circuits before one position are filled, that circuit has
some wires and components, and the circuits after it are empty.
-/
structure Underway (file : DesignFile) (circuit : Nat) (wires : List Nat) (placed : Nat)
    (library : Library)
    : Prop where
  tag_eq : library.tag = 0
  names_eq : library.circuits.map Circuit.name = file.circuits.map CircuitEntry.name
  wires_eq : (library.circuitAt circuit).wires = wires
  placed_eq : (library.circuitAt circuit).components.length = placed
  later
    : ∀ i,
        circuit < i
        → (library.circuitAt i).wires = [] ∧ (library.circuitAt i).components = []
  pins_eq : ∀ i, (library.circuitAt i).instanceEnds.length = file.placedPins circuit placed i

variable {file : DesignFile} {circuit placed : Nat} {entry : CircuitEntry} {wires : List Nat}
  {library : Library}

namespace Underway

theorem length_eq (underway : file.Underway circuit wires placed library)
    : library.circuits.length = file.circuits.length := by
  have same := congrArg List.length underway.names_eq
  rwa [List.length_map, List.length_map] at same

theorem inside (underway : file.Underway circuit wires placed library)
    (listed : file.circuits[circuit]? = some entry)
    : circuit < library.circuits.length :=
  underway.length_eq ▸ (List.getElem?_eq_some_iff.mp listed).1

theorem name_eq (underway : file.Underway circuit wires placed library)
    (listed : file.circuits[circuit]? = some entry)
    : (library.circuitAt circuit).name = entry.name := by
  have named := congrArg (fun names => names[circuit]?) underway.names_eq
  have there := List.getElem?_eq_getElem (underway.inside listed)
  simp only [List.getElem?_map, listed, there, Option.map_some, Option.some.injEq] at named
  rw [← named, Library.circuitAt, Library.circuit?, there, Option.getD_some]

/-- A change of the circuit at hand leads on if the pins are those of the components placed so far.
-/
theorem changed (underway : file.Underway circuit wires placed library)
    (listed : file.circuits[circuit]? = some entry) {change : Circuit → Circuit}
    (name : ∀ target, (change target).name = target.name) {wires' : List Nat} {placed' : Nat}
    (wires_eq : (change (library.circuitAt circuit)).wires = wires')
    (placed_eq : (change (library.circuitAt circuit)).components.length = placed')
    (pins_eq
      : (change (library.circuitAt circuit)).components.countP Component.isPin
        = (entry.components.take placed').countP ComponentEntry.isPin)
    : file.Underway circuit wires' placed' (library.changed circuit change) := by
  have at_ := Library.circuitAt_changed (underway.inside listed) change
  refine
    {
      tag_eq := underway.tag_eq,
      names_eq := (map_modify_eq name).trans underway.names_eq,
      wires_eq := by rw [at_, if_pos rfl, wires_eq],
      placed_eq := by rw [at_, if_pos rfl, placed_eq],
      later := fun i after => ?_,
      pins_eq := fun i => ?_
    }
  · rw [at_, if_neg (Nat.ne_of_gt after)]
    exact underway.later i after
  · rw [at_]
    split
    · next here =>
        subst here
        rw [Circuit.instanceEnds_length, pins_eq, placedPins, listed]
        simp
    · next elsewhere =>
        rw [underway.pins_eq, placedPins, placedPins]
        split <;> simp [elsewhere]

/-- The pins of the circuit at hand are those of the components placed so far. -/
theorem countP_eq (underway : file.Underway circuit wires placed library)
    (listed : file.circuits[circuit]? = some entry)
    : (library.circuitAt circuit).components.countP Component.isPin
      = (entry.components.take placed).countP ComponentEntry.isPin := by
  rw [← Circuit.instanceEnds_length, underway.pins_eq, placedPins, listed]
  simp

/-- A change that leaves the components of the circuit at hand alone. -/
theorem wired (underway : file.Underway circuit wires placed library)
    (listed : file.circuits[circuit]? = some entry) {change : Circuit → Circuit}
    (name : ∀ target, (change target).name = target.name) {wires' : List Nat}
    (wires_eq : (change (library.circuitAt circuit)).wires = wires')
    (components : ∀ target, (change target).components = target.components)
    : file.Underway circuit wires' placed (library.changed circuit change) :=
  underway.changed listed name wires_eq (by rw [components, underway.placed_eq])
    (by rw [components, underway.countP_eq listed])

/-- When a circuit is filled, the next one is empty. -/
theorem next (underway : file.Underway circuit wires entry.components.length library)
    (listed : file.circuits[circuit]? = some entry)
    : file.Underway (circuit + 1) [] 0 library := by
  obtain ⟨wires_eq, components_eq⟩ := underway.later (circuit + 1) (Nat.lt_succ_self _)
  refine
    {
      tag_eq := underway.tag_eq,
      names_eq := underway.names_eq,
      wires_eq,
      placed_eq := by rw [components_eq, List.length_nil],
      later := fun i after => underway.later i (by omega),
      pins_eq := fun i => ?_
    }
  rw [underway.pins_eq, placedPins, placedPins]
  split
  · next other there =>
      rcases Nat.lt_trichotomy i circuit with before | rfl | after
      · simp [before, Nat.lt_succ_of_lt before]
      · obtain rfl := Option.some.inj (listed.symm.trans there)
        simp [CircuitEntry.pinCount, List.countP_eq_length_filter]
      · simp [Nat.not_lt_of_lt after, Nat.ne_of_gt after, Nat.not_lt_of_le after]
  · rfl

end Underway

end DesignFile

end SchematicHdl
