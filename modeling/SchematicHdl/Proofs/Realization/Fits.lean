import SchematicHdl.Proofs.Netlist.Expressions
import SchematicHdl.Proofs.Realization.Form

/-! Ports that fit the part that they are instantiated for. A port of a definition takes its value
from an end of the part, from a range of a bubble bus or from a name of the circuit around it, and
whatever it is has the width of the port.
-/

namespace SchematicHdl

open Hdl (Expr)
open Outcome

/-- The part has an end of a width, on bits of root nets. -/
def Part.HasEnd (netlist : Netlist) (part : Part) (endIndex width : Nat) : Prop :=
  ∃ direction resolved,
    part.end? endIndex = some resolved
    ∧ Netlist.Attached netlist.nets ⟨direction, width⟩ resolved

/-- The port takes its value from the part that is placed, or from the circuit around it. -/
def Port.Fits (placement : Placement) (port : Port) : Prop :=
  match port.source with
  | .whole endIndex => placement.part.HasEnd placement.netlist endIndex port.width
  | .bitwise ends =>
      1 < port.width
      ∧ ends.length = port.width
      ∧ ∀ endIndex ∈ ends, placement.part.HasEnd placement.netlist endIndex 1
  | .clockOf endIndex => port.width = 1 ∧ placement.part.HasEnd placement.netlist endIndex 1
  | .tickOf endIndex => port.width = 1 ∧ placement.part.HasEnd placement.netlist endIndex 1
  | .bubbles bus =>
      0 < port.width
      ∧ port.width < Word.size
      ∧ Reserved port.width (placement.part.bubbles.get bus)
  | .fixed expr =>
      expr.HasWidth (placement.netlist.scope placement.mode []) port.width

/-- All ports of a form fit. -/
def Form.Fits (placement : Placement) (form : Form) : Prop :=
  ∀ port ∈ form.ports, port.Fits placement

namespace Netlist

variable {library : Library} {netlists : List Netlist} {netlist : Netlist} {component : Component}

theorem Holds.hasEnd {part : Part} (holds : Holds library netlists netlist component part)
    {endIndex : Nat} {shape : EndShape}
    (shaped : (library.ends component)[endIndex]? = some shape)
    : part.HasEnd netlist endIndex shape.width := by
  obtain ⟨resolved, found, attached⟩ := forall₂_getElem? holds.ends shaped
  exact ⟨shape.direction, resolved, found, attached⟩

/-- Ports that fit the ends of a component fit the part that is placed for it. -/
theorem Holds.port_fits {placement : Placement}
    (holds : Holds library netlists placement.netlist component placement.part) {port : Port}
    {direction : Direction} (fits : port.FitsEnds (library.ends component) direction)
    : port.Fits placement := by
  cases source : port.source <;> simp only [Port.FitsEnds, Port.Fits, source] at fits ⊢
  case whole => exact holds.hasEnd fits
  case bitwise =>
    exact ⟨fits.1, fits.2.1, fun endIndex member => holds.hasEnd (fits.2.2 endIndex member)⟩
  case clockOf => exact ⟨fits.1, holds.hasEnd fits.2⟩
  case tickOf => exact ⟨fits.1, holds.hasEnd fits.2⟩
  case fixed =>
    obtain ⟨single, bit, rfl⟩ := fits
    rw [single]
    exact .filled rfl

theorem Holds.form_fits {placement : Placement}
    (holds : Holds library netlists placement.netlist component placement.part) {form : Form}
    (fits : form.FitsEnds (library.ends component))
    : form.Fits placement := by
  intro port member
  simp only [Form.ports, Form.drivingPorts, List.mem_append] at member
  rcases member with input | output | inout
  · exact holds.port_fits (fits.inputs port input)
  · exact holds.port_fits (fits.outputs port output)
  · exact holds.port_fits (fits.inouts port inout)

/-- The form of a circuit fits its instances. -/
theorem Sound.form_fits {placement : Placement} {target : CircuitRef}
    (holds : Holds library netlists placement.netlist component placement.part)
    (kind : component.kind = .subcircuit target)
    (found : ofCircuit? netlists target.position = some netlist)
    (sound : netlist.Sound library netlists)
    : (netlist.form placement.mode).Fits placement := by
  obtain ⟨child, same, reserved, trees⟩ := holds.subcircuit target kind
  obtain rfl := Option.some.inj (found.symm.trans same)
  have there := (ofCircuit?_mem found).2
  have ends : library.ends component = netlist.circuit.instanceEnds := by
    rw [sound.circuit_eq, there]
    simp [Library.ends, kind]
  have bubbles {bus : Direction} {port : Port} (listed : port ∈ netlist.bubblePorts bus)
      : port.Fits placement := by
    simp only [bubblePorts] at listed
    split at listed
    · cases listed
    · next some =>
        obtain rfl := List.mem_singleton.mp listed
        exact ⟨Nat.pos_of_ne_zero some, sound.words bus, reserved bus⟩
  have pins {direction : Direction} {port : Port} (listed : port ∈ netlist.pinPorts direction)
      : port.Fits placement := by
    obtain ⟨⟨pin, endIndex⟩, numbered, made⟩ := List.mem_filterMap.mp listed
    simp only at made
    split at made
    · obtain ⟨name, -, rfl⟩ := Option.map_eq_some_iff.mp made
      have atPin : netlist.pins[endIndex]? = some pin := List.mem_zipIdx_iff_getElem?.1 numbered
      obtain ⟨shape, shaped, resolved, single, width⟩ :=
        forall₂_getElem? sound.instanceEnds.flip atPin
      have known : (pin.end? 0).elim 1 ResolvedEnd.width = shape.width := by
        simp [Part.end?, single, width]
      simp only [Port.Fits, Port.plain, known]
      exact holds.hasEnd (ends ▸ shaped)
    · cases made
  intro port member
  simp only [Form.ports, Form.drivingPorts, form, List.mem_append] at member
  rcases member with (((listed | listed) | listed) | listed) | (listed | listed) | listed
  · obtain ⟨tree, used, rfl⟩ := List.mem_map.mp listed
    exact .ref (clockTree_mem_scope _ _ (trees used))
  · split at listed
    · next needed =>
        obtain rfl := List.mem_singleton.mp listed
        simp only [needsGlobalClock, Bool.and_eq_true, decide_eq_true_eq] at needed
        obtain ⟨tree, used⟩ :=
          List.exists_mem_of_ne_nil netlist.clockTrees (by simpa using needed.2)
        exact .ref (needed.1 ▸ globalClock_mem_scope (trees used))
    · cases listed
  · exact bubbles listed
  · exact pins listed
  · exact bubbles listed
  · exact pins listed
  · exact bubbles listed

end Netlist

end SchematicHdl
