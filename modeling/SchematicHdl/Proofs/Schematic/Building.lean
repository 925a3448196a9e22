import SchematicHdl.Proofs.Net.Connectivity
import SchematicHdl.Proofs.Outcome
import SchematicHdl.Schematic.Builder

/-! Libraries that building steps lead to. Whatever steps are taken in whatever order, circuits and
components stand at their positions, circuits have names of their own, and every placed component
has a supported shape.
-/

namespace SchematicHdl

open Net (HasBit)
open Outcome

-----------------------------------------------------------------------------------------
-- Building steps
-----------------------------------------------------------------------------------------

/-- One step of building a library. -/
inductive BuildStep where
  | circuit (name : String)
  | entity (name : String) (dialect : Dialect) (ports : List EntityPort) (body : String)
  | wire (circuit width : Nat)
  | join (circuit : Nat) (a b : WireId)
  | splice (circuit : Nat) (a : WireId) (aBit : Nat) (b : WireId) (bBit : Nat)
  | customBody (circuit : Nat) (dialect : Dialect) (text : String)
  | primitive (circuit : Nat) (type : Primitive) (attributes : Attributes)
  | pin (circuit : Nat) (direction : Direction) (name : String) (width : Nat)
  | clock (circuit : Nat) (attributes : Attributes)
  | subcircuit (circuit : Nat) (target : CircuitRef)
  | external (circuit : Nat) (entity : ExternalEntity)
  | unknown (circuit : Nat) (typeName : String) (ends : List EndShape) (attributes : Attributes)
  | label (circuit component : Nat) (text : String)
  | connect (circuit component endIndex : Nat) (wire : WireId)
  | connectBits (circuit component endIndex : Nat) (bits : List (Option (WireId × Nat)))

def BuildStep.perform [Arithmetic] : BuildStep → BuildM Unit
  | .circuit name => discard (Build.circuit name)
  | .entity name dialect ports body => discard (Build.entity name dialect ports body)
  | .wire owner width => discard (Build.wire owner width)
  | .join owner a b => Build.join owner a b
  | .splice owner a aBit b bBit => Build.splice owner a aBit b bBit
  | .customBody owner dialect text => Build.customBody owner dialect text
  | .primitive owner type attributes => discard (Build.primitive owner type attributes)
  | .pin owner direction name width => discard (Build.pin owner direction name width)
  | .clock owner attributes => discard (Build.clock owner attributes)
  | .subcircuit owner target => discard (Build.subcircuit owner target)
  | .external owner described => discard (Build.external owner described)
  | .unknown owner typeName ends attributes =>
      discard (Build.unknown owner typeName ends attributes)
  | .label owner component text => Build.label owner component text
  | .connect owner component endIndex target => Build.connect owner component endIndex target
  | .connectBits owner component endIndex bits =>
      Build.connectBits owner component endIndex bits

namespace Library

/-- The library is built from an empty one by steps, each of them allowed where it is taken. -/
inductive BuiltBy [Arithmetic] (allowed : Library → BuildStep → Prop) : Library → Prop
  | empty (tag : Nat) : BuiltBy allowed (.empty tag)
  | step {library library' : Library} (built : BuiltBy allowed library) (step : BuildStep)
    (permitted : allowed library step)
    (performed : step.perform.run library = .ok ((), library'))
    : BuiltBy allowed library'

/-- The library is built from an empty one by any steps. -/
def Built [Arithmetic] : Library → Prop := BuiltBy (fun _ _ => True)

theorem BuiltBy.built [Arithmetic] {allowed : Library → BuildStep → Prop} {library : Library}
    (built : library.BuiltBy allowed)
    : library.Built := by
  induction built with
  | empty tag => exact .empty tag
  | step _ step _ performed ih => exact .step ih step trivial performed

theorem built_of_steps [Arithmetic] {tag : Nat} {steps : List BuildStep} {library : Library}
    (performed : (steps.forM BuildStep.perform).run (.empty tag) = .ok ((), library))
    : library.Built :=
  (forM_run_eq_ok.1 performed).keeps (P := Library.Built)
    (fun step _ _ _ performed built => .step built step trivial performed) (.empty tag)

end Library

-----------------------------------------------------------------------------------------
-- What a step does
-----------------------------------------------------------------------------------------

/-- The shape of a component is supported. -/
def Component.Supported (component : Component) : Prop :=
  match component.kind with
  | .primitive type => type.shapeFault? component.attributes = none
  | .pin _ => isSupportedWidth component.attributes.width = true
  | _ => True

/-- The circuit has the wires and bits that an end is attached to. -/
def Circuit.Offers (circuit : Circuit) : Connection → Prop
  | .wire wire => wire < circuit.wires.length
  | .bits bits => ∀ bit, some bit ∈ bits → HasBit circuit.wires bit

/-- Wires are added to a circuit, or joins and splices of wires that it has. -/
structure Circuit.Extends (before after : Circuit) : Prop where
  wires : before.wires <+: after.wires
  widths : ∀ width ∈ after.wires, width ∈ before.wires ∨ minWidth ≤ width
  joins
    : ∀ a b,
        (a, b) ∈ after.joins
        → (a, b) ∈ before.joins ∨ a < before.wires.length ∧ b < before.wires.length
  splices
    : ∀ a b,
        (a, b) ∈ after.splices
        → (a, b) ∈ before.splices ∨ HasBit before.wires a ∧ HasBit before.wires b

namespace Library

/-- All that a successful step can do to a library. -/
inductive Grows (step : BuildStep) (library : Library) : Library → Prop
  | circuit (name : String) (fresh : library.find? name = none)
    : Grows step library
        { library with circuits := library.circuits ++ [.empty library.circuits.length name] }
  | entity (entity : ExternalEntity)
    (described : step = .entity entity.name entity.dialect entity.ports entity.body)
    : Grows step library { library with entities := library.entities ++ [entity] }
  /-- Wires, joins, splices or a hand-written architecture are added to a circuit. -/
  | wiring (circuit : Nat) (change : Circuit → Circuit)
    (position : ∀ target, (change target).position = target.position)
    (name : ∀ target, (change target).name = target.name)
    (components : ∀ target, (change target).components = target.components)
    (extended
      : (library.circuitAt circuit).Extends (change (library.circuitAt circuit)))
    : Grows step library { library with circuits := library.circuits.modify circuit change }
  | place (circuit : Nat) (component : Component)
    (position : component.position = (library.circuitAt circuit).components.length)
    (supported : component.Supported)
    (external
      : ∀ entity, component.kind = .external entity → step = .external circuit entity)
    (unattached : component.connections = [])
    (subcircuit
      : ∀ target, component.kind = .subcircuit target → step = .subcircuit circuit target)
    : Grows step library
        {
          library with
            circuits :=
              library.circuits.modify circuit (fun target =>
                { target with components := target.components ++ [component] })
        }
  /-- A component is labelled or attached. -/
  | component (circuit index : Nat) (change : Component → Component)
    (position : ∀ placed, (change placed).position = placed.position)
    (kind : ∀ placed, (change placed).kind = placed.kind)
    (attributes : ∀ placed, (change placed).attributes = placed.attributes)
    (connections
      : ∀ placed,
          ∀ entry ∈ (change placed).connections,
            entry ∈ placed.connections ∨ (library.circuitAt circuit).Offers entry.2)
    : Grows step library
        {
          library with
            circuits :=
              library.circuits.modify circuit (fun target =>
                { target with components := target.components.modify index change })
        }

end Library

namespace Library

variable {library : Library} {owner : Nat} {wire : WireId}

theorem lt_of_checkWire (checked : library.checkWire owner wire = .ok ())
    : wire.wire < (library.circuitAt owner).wires.length := by
  simp only [checkWire] at checked
  split at checked
  · cases checked
  split at checked
  · cases checked
  · next inside => exact Nat.lt_of_not_le inside

theorem hasBit_of_checkWireBit {bit : Nat}
    (checked : library.checkWireBit owner wire bit = .ok ())
    : HasBit (library.circuitAt owner).wires ⟨wire.wire, bit⟩ := by
  obtain ⟨width, measured, inRange⟩ := bind_eq_ok.1 checked
  obtain ⟨⟨⟩, own, same⟩ := bind_eq_ok.1 measured
  have found := List.getElem?_eq_getElem (lt_of_checkWire own)
  refine ⟨_, found, ?_⟩
  obtain rfl : _ = width := by simpa [List.getD_eq_getElem?_getD, found] using pure_eq_ok.1 same
  split at inRange
  · cases inRange
  · next lower => exact Nat.lt_of_not_le lower

end Library

namespace Circuit.Extends

variable {circuit : Circuit}

theorem same_wires {joins : List (Nat × Nat)} {splices : List (WireBit × WireBit)}
    {customBody : Dialect → Option String}
    (joined
      : ∀ a b,
          (a, b) ∈ joins
          → (a, b) ∈ circuit.joins ∨ a < circuit.wires.length ∧ b < circuit.wires.length)
    (spliced
      : ∀ a b,
          (a, b) ∈ splices
          → (a, b) ∈ circuit.splices ∨ HasBit circuit.wires a ∧ HasBit circuit.wires b)
    : circuit.Extends { circuit with joins, splices, customBody } :=
  ⟨List.prefix_refl _, fun _ => .inl, joined, spliced⟩

end Circuit.Extends

namespace Build

variable {library library' : Library} {step : BuildStep}

theorem check_run_eq_ok {α : Type} {test : Library → Except Misuse α} {result : α × Library}
    : (check test).run library = .ok result
      ↔ ∃ a, test library = .ok a ∧ (a, library) = result := by
  simp only [check, run_bind_eq_ok, run_get_eq_ok, Prod.mk.injEq]
  constructor
  · rintro ⟨_, _, ⟨rfl, rfl⟩, h⟩
    split at h
    · next value found => exact ⟨value, found, run_pure_eq_ok.1 h⟩
    · exact absurd h run_throw_ne_ok
  · rintro ⟨a, found, rfl⟩
    refine ⟨library, library, ⟨rfl, rfl⟩, ?_⟩
    rw [found]
    rfl

/-- A placed component stands at the end of its circuit. -/
theorem place_grows {circuit : Nat} {kind : ComponentKind} {attributes : Attributes}
    {label : Option String} {position : Nat}
    (h : (place circuit kind attributes label).run library = .ok (position, library'))
    (supported
      : ∀ position,
          Component.Supported { position, kind, attributes, label, connections := [] })
    (external : ∀ entity, kind = .external entity → step = .external circuit entity)
    (subcircuit : ∀ target, kind = .subcircuit target → step = .subcircuit circuit target)
    : library.Grows step library' := by
  simp only [place, updateCircuit, run_bind_eq_ok, run_get_eq_ok, run_modify_eq_ok,
    run_pure_eq_ok, Prod.mk.injEq] at h
  obtain ⟨_, _, ⟨rfl, rfl⟩, _, _, ⟨_, rfl⟩, _, rfl⟩ := h
  exact .place circuit _ rfl (supported _) external rfl subcircuit

theorem circuit_grows {name : String} {ref : CircuitRef}
    (h : (circuit name).run library = .ok (ref, library'))
    : library.Grows step library' := by
  simp only [circuit, run_bind_eq_ok, run_get_eq_ok, Prod.mk.injEq] at h
  obtain ⟨_, _, ⟨rfl, rfl⟩, h⟩ := h
  split at h
  · obtain ⟨_, _, thrown, -⟩ := run_bind_eq_ok.1 h
    exact absurd thrown run_throw_ne_ok
  · next missing =>
      simp only [run_bind_eq_ok, run_set_eq_ok, run_pure_eq_ok, Prod.mk.injEq] at h
      obtain ⟨_, _, ⟨_, rfl⟩, _, rfl⟩ := h
      exact .circuit name (by simpa using missing)

theorem entity_grows {name : String} {dialect : Dialect} {ports : List EntityPort} {body : String}
    {entity : ExternalEntity}
    (h : (Build.entity name dialect ports body).run library = .ok (entity, library'))
    : library' = { library with entities := library.entities ++ [entity] }
      ∧ entity = { position := library.entities.length, name, dialect, ports, body } := by
  simp only [Build.entity, run_bind_eq_ok, run_get_eq_ok, run_set_eq_ok, run_pure_eq_ok,
    Prod.mk.injEq] at h
  obtain ⟨_, _, ⟨rfl, rfl⟩, _, _, ⟨_, rfl⟩, rfl, rfl⟩ := h
  exact ⟨rfl, rfl⟩

theorem wire_grows {owner width : Nat} {id : WireId}
    (h : (wire owner width).run library = .ok (id, library'))
    : library.Grows step library' := by
  simp only [wire] at h
  split at h
  · obtain ⟨_, _, thrown, -⟩ := run_bind_eq_ok.1 h
    exact absurd thrown run_throw_ne_ok
  next wide =>
  split at h
  · obtain ⟨_, _, thrown, -⟩ := run_bind_eq_ok.1 h
    exact absurd thrown run_throw_ne_ok
  simp only [updateCircuit, run_bind_eq_ok, run_get_eq_ok, run_modify_eq_ok, run_pure_eq_ok,
    Prod.mk.injEq] at h
  obtain ⟨_, _, ⟨rfl, rfl⟩, _, _, ⟨_, rfl⟩, _, rfl⟩ := h
  refine
    .wiring owner _ (fun _ => rfl) (fun _ => rfl) (fun _ => rfl)
      ⟨List.prefix_append _ _, fun other member => ?_, fun _ _ => .inl, fun _ _ => .inl⟩
  rcases List.mem_append.mp member with earlier | new
  · exact .inl earlier
  · exact .inr (List.mem_singleton.mp new ▸ Nat.le_of_not_lt wide)

/-- Joins and splices are checked before they are recorded. -/
theorem checked_update_grows {owner : Nat} {first second : Library → Except Misuse Unit}
    {change : Circuit → Circuit}
    (h
      : (do check first; check second; updateCircuit owner change : BuildM Unit).run library
        = .ok ((), library'))
    (position : ∀ target, (change target).position = target.position)
    (name : ∀ target, (change target).name = target.name)
    (components : ∀ target, (change target).components = target.components)
    (extended
      : first library = .ok ()
        → second library = .ok ()
        → (library.circuitAt owner).Extends (change (library.circuitAt owner)))
    : library.Grows step library' := by
  simp only [updateCircuit, run_bind_eq_ok, check_run_eq_ok, run_modify_eq_ok,
    Prod.mk.injEq] at h
  obtain ⟨_, _, ⟨_, allowed, _, rfl⟩, _, _, ⟨_, allowed', _, rfl⟩, _, rfl⟩ := h
  exact .wiring owner change position name components (extended allowed allowed')

theorem primitive_grows {owner : Nat} {type : Primitive} {attributes : Attributes}
    {placed : Nat}
    (h : (primitive owner type attributes).run library = .ok (placed, library'))
    : library.Grows step library' := by
  simp only [primitive] at h
  split at h
  · simp only [run_bind_eq_ok, run_get_eq_ok, Prod.mk.injEq] at h
    obtain ⟨_, _, _, thrown⟩ := h
    exact absurd thrown run_throw_ne_ok
  · next supported => exact place_grows h (fun _ => supported) nofun nofun

/-- The width of a pin is kept as an attribute. -/
theorem width_of_set (width : Nat) (supported : isSupportedWidth width = true)
    : (Attributes.empty.set "width" (.number width)).width = width := by
  have narrow : width ≤ 64 := by
    simp only [isSupportedWidth, maxWidth, Bool.and_eq_true] at supported
    exact of_decide_eq_true supported.2
  have below : width < Attributes.widthLimit :=
    Nat.lt_of_le_of_lt narrow (by decide)
  exact Nat.mod_eq_of_lt below

theorem pin_grows {owner : Nat} {direction : Direction} {name : String} {width placed : Nat}
    (h : (pin owner direction name width).run library = .ok (placed, library'))
    : library.Grows step library' := by
  simp only [pin] at h
  split at h
  · obtain ⟨_, _, -, h⟩ := run_bind_eq_ok.1 h
    obtain ⟨_, _, thrown, -⟩ := run_bind_eq_ok.1 h
    exact absurd thrown run_throw_ne_ok
  · next supported =>
      have supported : isSupportedWidth width = true := by simpa using supported
      refine place_grows h (fun _ => ?_) nofun nofun
      simp only [Component.Supported, width_of_set width supported, supported]

theorem subcircuit_grows {owner : Nat} {target : CircuitRef} {placed : Nat}
    (h : (subcircuit owner target).run library = .ok (placed, library'))
    : library.Grows (.subcircuit owner target) library' := by
  simp only [subcircuit, run_bind_eq_ok, run_get_eq_ok, Prod.mk.injEq] at h
  obtain ⟨_, _, ⟨rfl, rfl⟩, h⟩ := h
  split at h
  · obtain ⟨_, _, thrown, -⟩ := run_bind_eq_ok.1 h
    exact absurd thrown run_throw_ne_ok
  · refine place_grows h (fun _ => trivial) nofun fun other same => ?_
    rw [ComponentKind.subcircuit.inj same]

theorem updateComponent_grows {owner component : Nat} {change : Component → Component}
    (h : (updateComponent owner component change).run library = .ok ((), library'))
    (position : ∀ placed, (change placed).position = placed.position)
    (kind : ∀ placed, (change placed).kind = placed.kind)
    (attributes : ∀ placed, (change placed).attributes = placed.attributes)
    (connections
      : ∀ placed,
          ∀ entry ∈ (change placed).connections,
            entry ∈ placed.connections ∨ (library.circuitAt owner).Offers entry.2)
    : library.Grows step library' := by
  simp only [updateComponent, updateCircuit, run_modify_eq_ok, Prod.mk.injEq] at h
  obtain ⟨_, rfl⟩ := h
  exact .component owner component change position kind attributes connections

/-- Connections are checked before they are made. -/
theorem checked_attach_grows [Arithmetic] {owner component endIndex : Nat}
    {test : Library → Except Misuse Unit} {connection : Connection}
    (h
      : (do
          checkEnd owner component endIndex
          check test
          updateComponent owner component (fun placed => placed.attach endIndex connection)
          : BuildM Unit).run library
        = .ok ((), library'))
    (offered : test library = .ok () → (library.circuitAt owner).Offers connection)
    : library.Grows step library' := by
  simp only [checkEnd, run_bind_eq_ok, check_run_eq_ok, Prod.mk.injEq] at h
  obtain ⟨_, _, ⟨_, _, _, rfl⟩, _, _, ⟨_, allowed, _, rfl⟩, attached⟩ := h
  refine
    updateComponent_grows attached (fun _ => rfl) (fun _ => rfl) (fun _ => rfl)
      fun placed entry member => ?_
  rcases List.mem_cons.mp member with rfl | earlier
  · exact .inr (offered allowed)
  · exact .inl earlier

/-- What is attached bit by bit has been checked bit by bit. -/
theorem offers_bits {owner : Nat} {bits : List (Option (WireId × Nat))}
    (checked
      : bits.forM (fun bit =>
          match bit with
          | some (wire, position) => library.checkWireBit owner wire position
          | none => .ok ()) = .ok ())
    : (library.circuitAt owner).Offers
        (.bits (bits.map (fun bit => bit.map (fun target => ⟨target.1.wire, target.2⟩)))) := by
  intro bit member
  obtain ⟨given, listed, made⟩ := List.mem_map.mp member
  obtain ⟨⟨wire, position⟩, rfl, rfl⟩ := Option.map_eq_some_iff.mp made
  exact Library.hasBit_of_checkWireBit (forM_eq_ok.1 checked _ listed)

end Build

/-- All that a successful step can do, by cases on the step. -/
theorem BuildStep.perform_grows [Arithmetic] {library library' : Library} {step : BuildStep}
    (h : step.perform.run library = .ok ((), library'))
    : library.Grows step library' := by
  cases step with
  | circuit name =>
      obtain ⟨_, h⟩ := run_discard_eq_ok.1 h
      exact Build.circuit_grows h
  | entity name dialect ports body =>
      obtain ⟨_, h⟩ := run_discard_eq_ok.1 h
      obtain ⟨rfl, rfl⟩ := Build.entity_grows h
      exact .entity _ rfl
  | wire owner width =>
      obtain ⟨_, h⟩ := run_discard_eq_ok.1 h
      exact Build.wire_grows h
  | join owner a b =>
      refine
        Build.checked_update_grows h (fun _ => rfl) (fun _ => rfl) (fun _ => rfl)
          fun first second => .same_wires (fun x y member => ?_) fun _ _ => .inl
      rcases List.mem_append.mp member with earlier | new
      · exact .inl earlier
      · obtain ⟨rfl, rfl⟩ := Prod.mk.inj (List.mem_singleton.mp new)
        exact .inr ⟨Library.lt_of_checkWire first, Library.lt_of_checkWire second⟩
  | splice owner a aBit b bBit =>
      refine
        Build.checked_update_grows h (fun _ => rfl) (fun _ => rfl) (fun _ => rfl)
          fun first second => .same_wires (fun _ _ => .inl) fun x y member => ?_
      rcases List.mem_append.mp member with earlier | new
      · exact .inl earlier
      · obtain ⟨rfl, rfl⟩ := Prod.mk.inj (List.mem_singleton.mp new)
        exact
          .inr ⟨Library.hasBit_of_checkWireBit first, Library.hasBit_of_checkWireBit second⟩
  | customBody owner dialect text =>
      obtain ⟨-, rfl⟩ := Prod.mk.inj (run_modify_eq_ok.1 h)
      exact
        .wiring owner _ (fun _ => rfl) (fun _ => rfl) (fun _ => rfl)
          (.same_wires (fun _ _ => .inl) fun _ _ => .inl)
  | primitive owner type attributes =>
      obtain ⟨_, h⟩ := run_discard_eq_ok.1 h
      exact Build.primitive_grows h
  | pin owner direction name width =>
      obtain ⟨_, h⟩ := run_discard_eq_ok.1 h
      exact Build.pin_grows h
  | clock owner attributes =>
      obtain ⟨_, h⟩ := run_discard_eq_ok.1 h
      exact Build.place_grows h (fun _ => trivial) nofun nofun
  | subcircuit owner target =>
      obtain ⟨_, h⟩ := run_discard_eq_ok.1 h
      exact Build.subcircuit_grows h
  | external owner entity =>
      obtain ⟨_, h⟩ := run_discard_eq_ok.1 h
      refine Build.place_grows h (fun _ => trivial) (fun other same => ?_) nofun
      rw [ComponentKind.external.inj same]
  | unknown owner typeName ends attributes =>
      obtain ⟨_, h⟩ := run_discard_eq_ok.1 h
      exact Build.place_grows h (fun _ => trivial) nofun nofun
  | label owner component text =>
      exact
        Build.updateComponent_grows h (fun _ => rfl) (fun _ => rfl) (fun _ => rfl)
          fun _ _ => .inl
  | connect owner component endIndex wire =>
      exact Build.checked_attach_grows h Library.lt_of_checkWire
  | connectBits owner component endIndex bits =>
      exact Build.checked_attach_grows h Build.offers_bits

-----------------------------------------------------------------------------------------
-- Well-formed libraries
-----------------------------------------------------------------------------------------

/-- What every circuit of a library satisfies at its position. -/
structure Circuit.WellFormed (circuit : Circuit) (position : Nat) : Prop where
  position_eq : circuit.position = position
  positions
    : ∀ (i : Nat) (component : Component),
        circuit.components[i]? = some component → component.position = i
  supported : ∀ component ∈ circuit.components, component.Supported

/-- An entry of an extended list is an earlier one, or the new one at the end. -/
theorem getElem?_concat_eq_some {α : Type} {xs : List α} {x y : α} {i : Nat}
    (found : (xs ++ [x])[i]? = some y)
    : xs[i]? = some y ∨ i = xs.length ∧ x = y := by
  rcases Nat.lt_or_ge i xs.length with lower | above
  · exact .inl (List.getElem?_append_left lower ▸ found)
  · rw [List.getElem?_append_right above, List.getElem?_singleton] at found
    split at found
    · next last => exact .inr ⟨by omega, Option.some.inj found⟩
    · cases found

/-- The components of a circuit stand at different positions. -/
theorem Circuit.WellFormed.positions_distinct {circuit : Circuit} {position : Nat}
    (wellFormed : circuit.WellFormed position)
    : (circuit.components.map Component.position).Nodup := by
  have inOrder
      : circuit.components.map Component.position = List.range circuit.components.length := by
    refine List.ext_getElem (by simp) fun i inside _ => ?_
    rw [List.length_map] at inside
    rw [List.getElem_map, List.getElem_range]
    exact wellFormed.positions i _ (List.getElem?_eq_getElem inside)
  exact inOrder ▸ List.nodup_range

/-- A supported component is added to a circuit at its end. -/
theorem Circuit.WellFormed.place {circuit : Circuit} {position : Nat}
    (wellFormed : circuit.WellFormed position) {component : Component}
    (last : component.position = circuit.components.length) (supported : component.Supported)
    : Circuit.WellFormed { circuit with components := circuit.components ++ [component] }
        position where
  position_eq := wellFormed.position_eq
  positions := by
    intro i placed found
    rcases getElem?_concat_eq_some found with earlier | ⟨rfl, rfl⟩
    · exact wellFormed.positions i placed earlier
    · exact last
  supported := by
    intro placed member
    rcases List.mem_append.mp member with earlier | new
    · exact wellFormed.supported placed earlier
    · obtain rfl := List.mem_singleton.mp new
      exact supported

/-- A component is changed where neither its position nor its shape depends on it. -/
theorem Circuit.WellFormed.modify_component {circuit : Circuit} {position index : Nat}
    (wellFormed : circuit.WellFormed position) {change : Component → Component}
    (kept : ∀ placed, (change placed).position = placed.position)
    (kind : ∀ placed, (change placed).kind = placed.kind)
    (attributes : ∀ placed, (change placed).attributes = placed.attributes)
    : Circuit.WellFormed { circuit with components := circuit.components.modify index change }
        position := by
  have changed {i : Nat} {placed : Component}
      (found : (circuit.components.modify index change)[i]? = some placed)
      : ∃ before,
          circuit.components[i]? = some before
          ∧ placed.position = before.position
          ∧ placed.kind = before.kind
          ∧ placed.attributes = before.attributes := by
    rw [List.getElem?_modify] at found
    cases here : circuit.components[i]? with
    | none => simp [here] at found
    | some before =>
        by_cases same : index = i
        · obtain rfl : change before = placed := by simpa [here, same] using found
          exact ⟨before, rfl, kept before, kind before, attributes before⟩
        · obtain rfl : before = placed := by simpa [here, same] using found
          exact ⟨before, rfl, rfl, rfl, rfl⟩
  refine ⟨wellFormed.position_eq, fun i placed found => ?_, fun placed member => ?_⟩
  · obtain ⟨before, here, same, -⟩ := changed found
    exact same.trans (wellFormed.positions i before here)
  · obtain ⟨i, found⟩ := List.getElem?_of_mem member
    obtain ⟨before, here, -, sameKind, sameAttributes⟩ := changed found
    have supported := wellFormed.supported before (List.mem_of_getElem? here)
    simpa only [Component.Supported, sameKind, sameAttributes] using supported

namespace Library

/-- Circuits stand at their positions and have names of their own. -/
structure WellFormed (library : Library) : Prop where
  circuits
    : ∀ (position : Nat) (circuit : Circuit),
        library.circuits[position]? = some circuit → circuit.WellFormed position
  names : (library.circuits.map Circuit.name).Nodup

theorem WellFormed.modify {library : Library} (wellFormed : library.WellFormed)
    (position : Nat) (change : Circuit → Circuit) (name : ∀ c, (change c).name = c.name)
    (kept
      : ∀ circuit,
          library.circuits[position]? = some circuit
          → circuit.WellFormed position
          → (change circuit).WellFormed position)
    : WellFormed { library with circuits := library.circuits.modify position change } where
  circuits := by
    intro i circuit found
    simp only [List.getElem?_modify] at found
    cases here : library.circuits[i]? with
    | none => simp [here] at found
    | some before =>
        have old := wellFormed.circuits i before here
        by_cases same : position = i
        · subst same
          obtain rfl : change before = circuit := by simpa [here] using found
          exact kept before here old
        · obtain rfl : before = circuit := by simpa [here, same] using found
          exact old
  names := by
    have same : (library.circuits.modify position change).map Circuit.name
        = library.circuits.map Circuit.name := by
      apply List.ext_getElem?
      intro i
      simp only [List.getElem?_map, List.getElem?_modify]
      cases library.circuits[i]? with
      | none => rfl
      | some circuit =>
          by_cases here : position = i
          · simp [here, name]
          · simp [here]
    rw [same]
    exact wellFormed.names

/-- An empty circuit with a new name is added to a library. -/
theorem WellFormed.add_circuit {library : Library} (wellFormed : library.WellFormed)
    {name : String} (fresh : library.find? name = none)
    : WellFormed
        { library with circuits := library.circuits ++ [.empty library.circuits.length name] } where
  circuits := by
    intro i circuit found
    rcases getElem?_concat_eq_some found with earlier | ⟨rfl, rfl⟩
    · exact wellFormed.circuits i circuit earlier
    · exact ⟨rfl, by simp [Circuit.empty], by simp [Circuit.empty]⟩
  names := by
    rw [List.map_append, List.nodup_append]
    refine ⟨wellFormed.names, by simp, ?_⟩
    intro old listed new added same
    obtain rfl : name = new := by simpa [Circuit.empty, eq_comm] using added
    obtain ⟨circuit, member, named⟩ := List.mem_map.mp listed
    have differs := List.find?_eq_none.mp fresh circuit member
    simp [named, same] at differs

/-- Every step keeps a library well formed, by cases on what the step does. -/
theorem WellFormed.grows {library library' : Library} {step : BuildStep}
    (wellFormed : library.WellFormed) (grows : library.Grows step library')
    : library'.WellFormed := by
  cases grows with
  | circuit name fresh => exact wellFormed.add_circuit fresh
  | entity => exact ⟨wellFormed.circuits, wellFormed.names⟩
  | wiring position change kept name components =>
      refine wellFormed.modify position change name fun circuit _ old => ?_
      exact
        {
          position_eq := (kept circuit).trans old.position_eq,
          positions := components circuit ▸ old.positions,
          supported := components circuit ▸ old.supported
        }
  | place position component last supported =>
      refine wellFormed.modify position _ (fun _ => rfl) fun circuit here old => ?_
      have last : component.position = circuit.components.length := by
        simpa [circuitAt, circuit?, here] using last
      exact old.place last supported
  | component position index change kept kind attributes =>
      refine wellFormed.modify position _ (fun _ => rfl) fun circuit _ old => ?_
      exact old.modify_component kept kind attributes

/-- Whatever is built is well formed, by induction on the steps. -/
theorem Built.wellFormed [Arithmetic] {library : Library} (built : library.Built)
    : library.WellFormed := by
  induction built with
  | empty tag => exact ⟨by simp [Library.empty], by simp [Library.empty]⟩
  | step _ _ _ performed ih => exact ih.grows (BuildStep.perform_grows performed)

end Library

end SchematicHdl
