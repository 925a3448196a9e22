import SchematicHdl.Proofs.DesignFile.Filling
import SchematicHdl.Proofs.Schematic.Layout

/-! Elaboration of a checked design file. Everything that the check promises is there when a step
needs it, with one exception: an instance has the ends of the pins that are placed so far. So a
checked file comes to a library just when the pins come first.
-/

namespace SchematicHdl

open Outcome

-----------------------------------------------------------------------------------------
-- Building steps that go well
-----------------------------------------------------------------------------------------

namespace Library

variable {library : Library} {circuit : Nat}

theorem checkWire_eq_ok {wire : Nat} (inside : wire < (library.circuitAt circuit).wires.length)
    : library.checkWire circuit ⟨circuit, wire⟩ = .ok () := by
  simp [checkWire, Nat.not_le_of_lt inside]

theorem checkWireBit_eq_ok {wire bit : Nat}
    (inside : wire < (library.circuitAt circuit).wires.length)
    (below : bit < (library.circuitAt circuit).wires.getD wire 0)
    : library.checkWireBit circuit ⟨circuit, wire⟩ bit = .ok () := by
  have width : library.wireWidth circuit ⟨circuit, wire⟩
      = .ok ((library.circuitAt circuit).wires.getD wire 0) := by
    rw [wireWidth, checkWire_eq_ok inside]
    rfl
  refine bind_eq_ok.2 ⟨_, width, ?_⟩
  rw [if_neg (Nat.not_le_of_lt below)]
  rfl

end Library

namespace Build

variable {library : Library} {circuit : Nat}

theorem updateCircuit_run (change : Circuit → Circuit)
    : (updateCircuit circuit change).run library = .ok ((), library.changed circuit change) :=
  run_modify_eq_ok.2 rfl

theorem wire_run {width : Nat} (supported : isSupportedWidth width = true)
    : (wire circuit width).run library
      = .ok
          (⟨circuit, (library.circuitAt circuit).wires.length⟩,
            library.changed circuit (fun target =>
              { target with wires := target.wires ++ [width] })) := by
  simp only [isSupportedWidth, Bool.and_eq_true, decide_eq_true_eq] at supported
  rw [wire, if_neg (Nat.not_lt_of_le supported.1), if_neg (Nat.not_lt_of_le supported.2)]
  rfl

theorem checked_update_run {first second : Library → Except Misuse Unit}
    (firstOk : first library = .ok ()) (secondOk : second library = .ok ())
    (change : Circuit → Circuit)
    : (do check first; check second; updateCircuit circuit change : BuildM Unit).run library
      = .ok ((), library.changed circuit change) :=
  run_bind_eq_ok.2
    ⟨(), library, check_run_eq_ok.2 ⟨(), firstOk, rfl⟩,
      run_bind_eq_ok.2
        ⟨(), library, check_run_eq_ok.2 ⟨(), secondOk, rfl⟩, updateCircuit_run change⟩⟩

theorem place_run {kind : ComponentKind} {attributes : Attributes} {label : Option String}
    : (place circuit kind attributes label).run library
      = .ok
          ((library.circuitAt circuit).components.length,
            library.changed circuit (fun target =>
              {
                target with
                  components :=
                    target.components
                      ++ [{
                        position := (library.circuitAt circuit).components.length,
                        kind,
                        attributes,
                        label,
                        connections := []
                      }]
              })) :=
  rfl

theorem updateComponent_run {position : Nat} (change : Component → Component)
    : (updateComponent circuit position change).run library
      = .ok
          ((),
            library.changed circuit (fun target =>
              { target with components := target.components.modify position change })) :=
  updateCircuit_run _

theorem check_run_eq_error {α : Type} {test : Library → Except Misuse α} {misuse : Misuse}
    (refused : test library = .error misuse)
    : (check test).run library = .error misuse := by
  rw [check]
  simp only [StateT.run_bind, StateT.run_get, pure_bind, refused]
  rfl

theorem subcircuit_run {target : CircuitRef} (same : target.library = library.tag)
    : (subcircuit circuit target).run library
      = (place circuit (.subcircuit target) .empty none).run library := by
  simp only [subcircuit, StateT.run_bind, StateT.run_get, pure_bind]
  rw [if_neg (by simp [same])]

end Build

-----------------------------------------------------------------------------------------
-- Placing a component
-----------------------------------------------------------------------------------------

/-- What the names of a checked file stand for: circuits at their positions, and entities with the
ports that are listed for them.
-/
structure NameTable.Stands (names : NameTable) (file : DesignFile) : Prop where
  circuits
    : ∀ name,
        (file.findCircuit? name).isSome
        → names.circuits.lookup name = some (file.refOf name)
  entities
    : ∀ name entry,
        file.findEntity? name = some entry
        → ∃ entity, names.entities.lookup name = some entity ∧ entity.ports = entry.ports

namespace DesignFile

/-- A component is what an entry with some number of ends describes. -/
structure Describes [Arithmetic] (file : DesignFile) (entry : ComponentEntry) (count : Nat)
    (component : Component)
    : Prop where
  isPin_eq : component.isPin = entry.isPin
  ends : entry.kind ≠ .circuit → ∀ library : Library, (library.ends component).length = count
  kind
    : entry.kind = .circuit
      → component.kind = .subcircuit (file.refOf (entry.circuit.getD ""))
  counts : Arithmetic.checksOverflow = true → component.CountsEnds

variable {file : DesignFile} {names : NameTable} {circuit position : Nat} {entry : CircuitEntry}
  {component : ComponentEntry} {count : Nat} {library : Library}

theorem isPin_eq (entry : ComponentEntry)
    : entry.isPin
      = match entry.kind with
        | .pin _ => true
        | _ => false := by
  unfold ComponentEntry.isPin ComponentEntry.kind
  cases pinDirection? entry.type with
  | some direction => rfl
  | none =>
      split_ifs
      · rfl
      · rfl
      · rfl
      · cases Primitive.ofKey? entry.type <;> rfl

/-- A checked component is placed as it is described, by cases on its kind. -/
theorem place_run [Arithmetic] (circuit : Nat) (stands : names.Stands file)
    (tag_eq : library.tag = 0) (checked : file.ComponentChecked entry component position count)
    : ∃ kind attributes label,
        (component.place names circuit).run library
          = (Build.place circuit kind attributes label).run library
        ∧ (component.isPin = false → label = none)
        ∧ ∀ position,
            file.Describes component count
              { position, kind, attributes, label, connections := [] } := by
  have ends := checked.ends
  have other {placed : Component} := @Component.countsEnds_of_other placed
  unfold endCount at ends
  unfold ComponentEntry.place
  cases kind : component.kind with
  | pin direction =>
      simp only [kind] at ends ⊢
      split at ends
      · next supported =>
          obtain rfl := Except.ok.inj ends
          refine ⟨.pin direction, Attributes.empty.set "width" (.number (component.width.getD 1)),
            some (component.label.getD ""), ?_, fun notPin => ?_, fun _ => ?_⟩
          · rw [Build.pin, if_neg (by simpa using supported)]
          · rw [isPin_eq, kind] at notPin
            cases notPin
          · exact
              ⟨by rw [isPin_eq, kind]; rfl, fun _ _ => rfl, by simp [kind],
                fun _ => other (by simp)⟩
      · cases ends
  | clock =>
      simp only [kind] at ends ⊢
      obtain rfl := Except.ok.inj ends
      refine ⟨.clock, component.attributes, none, rfl, fun _ => rfl, fun _ => ?_⟩
      exact
        ⟨by rw [isPin_eq, kind]; rfl, fun _ _ => rfl, by simp [kind], fun _ => other (by simp)⟩
  | circuit =>
      simp only [kind] at ends ⊢
      split at ends
      · next found =>
          rw [stands.circuits _ (by rw [found]; rfl)]
          refine
            ⟨.subcircuit (file.refOf (component.circuit.getD "")), .empty, none, ?_, fun _ => rfl,
              fun _ => ?_⟩
          · exact Build.subcircuit_run tag_eq.symm
          · exact
              ⟨by rw [isPin_eq, kind]; rfl, fun differs => absurd kind differs, fun _ => rfl,
                fun _ => other (by simp)⟩
      · cases ends
  | entity =>
      simp only [kind] at ends ⊢
      split at ends
      · next described found =>
          obtain ⟨entity, known, ports⟩ := stands.entities _ described found
          obtain rfl := Except.ok.inj ends
          rw [known]
          refine ⟨.external entity, .empty, none, rfl, fun _ => rfl, fun _ => ?_⟩
          refine
            ⟨by rw [isPin_eq, kind]; rfl, fun _ library => ?_, by simp [kind],
              fun _ => other (by simp)⟩
          rw [Library.ends, List.length_map, ports]
      · cases ends
  | primitive type =>
      simp only [kind] at ends ⊢
      split at ends
      · cases ends
      · next supported =>
          obtain ⟨shapes, laidOut, same⟩ := bind_eq_ok.1 ends
          obtain rfl := pure_eq_ok.1 same
          obtain ⟨counts, rfl⟩ := Primitive.layOut_eq_ok.1 (mapError_eq_ok.1 laidOut)
          refine ⟨.primitive type, component.attributes, none, ?_, fun _ => rfl, fun _ => ?_⟩
          · rw [Build.primitive, supported]
          · exact
              ⟨by rw [isPin_eq, kind]; rfl, fun _ _ => rfl, by simp [kind],
                fun checks _ _ => counts checks⟩
  | unknown =>
      simp only [kind] at ends ⊢
      split at ends
      · next ports listed =>
          obtain ⟨-, same⟩ := then_eq_ok.1 ends
          obtain rfl := pure_eq_ok.1 same
          refine ⟨.unknown component.type _, component.attributes, none, rfl, fun _ => rfl, ?_⟩
          refine
            fun _ =>
              ⟨by rw [isPin_eq, kind]; rfl, fun _ library => ?_, by simp [kind],
                fun _ => other (by simp)⟩
          rw [Library.ends, List.length_map, listed, Option.getD_some]
      · cases ends

-----------------------------------------------------------------------------------------
-- Connecting a component
-----------------------------------------------------------------------------------------

theorem Describes.same [Arithmetic] {before after : Component}
    (describes : file.Describes component count before)
    (kind : after.kind = before.kind) (attributes : after.attributes = before.attributes)
    : file.Describes component count after where
  isPin_eq := by rw [← describes.isPin_eq, Component.isPin, Component.isPin, kind]
  ends := by
    intro other library
    rw [← describes.ends other library, Library.ends, Library.ends, kind, attributes]
  kind := by
    intro instantiates
    rw [kind, describes.kind instantiates]
  counts := by
    intro checks type same
    rw [attributes]
    exact describes.counts checks type (kind ▸ same)

/-- A component is placed as it is described and has a label, which is what counts unless it is a
pin.
-/
structure Connecting [Arithmetic] (file : DesignFile) (circuit position : Nat)
    (entry : CircuitEntry)
    (component : ComponentEntry) (count : Nat) (label : Option String) (library : Library)
    : Prop where
  underway : file.Underway circuit entry.wires (position + 1) library
  here
    : ∃ placed,
        library.componentAt? circuit position = some placed
        ∧ file.Describes component count placed
        ∧ placed.position = position
        ∧ (component.isPin = false → placed.label = label)

variable {label label' : Option String}

theorem Connecting.updated [Arithmetic]
    (connecting : file.Connecting circuit position entry component count label library)
    (listed : file.circuits[circuit]? = some entry) (change : Component → Component)
    (kind : ∀ placed, (change placed).kind = placed.kind)
    (attributes : ∀ placed, (change placed).attributes = placed.attributes)
    (position_eq : ∀ placed, (change placed).position = placed.position)
    (label_eq : ∀ placed, placed.label = label → (change placed).label = label')
    : file.Connecting circuit position entry component count label'
        (library.changed circuit (fun target =>
          { target with components := target.components.modify position change })) := by
  obtain ⟨placed, found, describes, stands, labelled⟩ := connecting.here
  have underway := connecting.underway
  constructor
  · refine underway.changed listed ?_ underway.wires_eq ?_ ?_
    · exact fun _ => rfl
    · rw [List.length_modify, underway.placed_eq]
    · have isPin (placed : Component) : (change placed).isPin = placed.isPin := by
        rw [Component.isPin, Component.isPin, kind]
      have kept
          : ((library.circuitAt circuit).components.modify position change).map Component.isPin
            = (library.circuitAt circuit).components.map Component.isPin :=
        map_modify_eq isPin
      rw [← underway.countP_eq listed]
      simpa [List.countP_map] using congrArg (List.countP id) kept
  · refine ⟨change placed, ?_, describes.same (kind placed) (attributes placed),
      (position_eq placed).trans stands, fun notPin => label_eq placed (labelled notPin)⟩
    rw [Library.componentAt?] at found ⊢
    rw [Library.circuitAt_changed (underway.inside listed), if_pos rfl, List.getElem?_modify, found]
    simp

/-- An end that is there is attached; the only end that can be missing is that of an instance which
is connected early.
-/
theorem Connecting.attach_ends [Arithmetic]
    (connecting : file.Connecting circuit position entry component count component.label library)
    (listed : file.circuits[circuit]? = some entry)
    (placedAt : entry.components[position]? = some component)
    (checked : file.ComponentChecked entry component position count) {endIndex : Nat}
    {connection : Connection}
    (connected : component.connections[endIndex]? = some (some connection))
    {test : Library → Except Misuse Unit} (passes : test library = .ok ()) (attached : Connection)
    : Ends
        (do
          Build.checkEnd circuit position endIndex
          Build.check test
          Build.updateComponent circuit position (fun placed => placed.attach endIndex attached)
          : BuildM Unit)
        library
        (fun _ library' =>
          file.Connecting circuit position entry component count component.label library'
          ∧ ¬ file.ConnectsEarly circuit position endIndex entry component)
        file.EarlyMisuse := by
  obtain ⟨placed, found, describes, stands, labelled⟩ := connecting.here
  have pins (kind : component.kind = .circuit)
      : (library.ends placed).length
        = file.placedPins circuit (position + 1)
            (file.positionOf (component.circuit.getD "")) := by
    rw [Library.ends, describes.kind kind]
    exact connecting.underway.pins_eq _
  have laidOut : library.layOut placed = .ok (library.ends placed) :=
    Library.layOut_eq_ok.2 ⟨describes.counts, rfl⟩
  by_cases short : (library.ends placed).length ≤ endIndex
  · have kind : component.kind = .circuit := by
      by_contra other
      have inside := (List.getElem?_eq_some_iff.mp connected).1
      have fits := checked.length_le
      rw [describes.ends other] at short
      omega
    have notPin : component.isPin = false := by rw [isPin_eq, kind]
    have early : file.ConnectsEarly circuit position endIndex entry component :=
      ⟨listed, placedAt, kind, ⟨connection, connected⟩, pins kind ▸ short⟩
    have misuse := EarlyMisuse.connect early ⟨describes.kind kind, stands, labelled notPin⟩
    refine ends_bind (M := fun _ _ => False)
      (ends_of_error (Build.check_run_eq_error ?_) misuse) fun _ _ impossible => impossible.elim
    rw [found, ← connecting.underway.name_eq listed, ← pins kind]
    simp only [Library.checkEnd, laidOut, Except.mapError, bind, Except.bind, if_pos short]
  · refine ends_of_ok
      (run_bind_eq_ok.2
        ⟨(), library, Build.check_run_eq_ok.2 ⟨(), ?_, rfl⟩,
          run_bind_eq_ok.2
            ⟨(), library, Build.check_run_eq_ok.2 ⟨(), passes, rfl⟩,
              Build.updateComponent_run _⟩⟩) ⟨?_, fun early => ?_⟩
    · rw [found]
      simp only [Library.checkEnd, laidOut, Except.mapError, bind, Except.bind, if_neg short]
      rfl
    · exact connecting.updated listed _ (fun _ => rfl) (fun _ => rfl) (fun _ => rfl) (fun _ => id)
    · exact short (pins early.kind ▸ early.early)

end DesignFile

end SchematicHdl
