import SchematicHdl.Proofs.DesignFile.Build

/-! What a check of a design file establishes: circuits and entities have names of their own, the
top circuit exists, and all that the entries of a circuit name is there.
-/

namespace SchematicHdl

open Outcome

namespace CircuitEntry

variable {circuit : CircuitEntry}

theorem checkWire_eq_ok {wire : Nat}
    : circuit.checkWire wire = .ok () ↔ wire < circuit.wires.length := by
  unfold checkWire
  split
  · next missing => simpa using missing
  · next there => simpa using there

theorem checkBit_eq_ok {bit : WireBit}
    : circuit.checkBit bit = .ok ()
      ↔ bit.wire < circuit.wires.length ∧ bit.bit < circuit.wires.getD bit.wire 0 := by
  simp only [checkBit, then_eq_ok, checkWire_eq_ok]
  refine and_congr_right fun _ => ?_
  split
  · next outside => simpa using outside
  · next inside => simpa [pure, Except.pure] using inside

/-- The wires of a circuit are supported, and its joins and splices are between wires and bits that
it has.
-/
structure WiresChecked (circuit : CircuitEntry) : Prop where
  widths : ∀ width ∈ circuit.wires, isSupportedWidth width = true
  joins
    : ∀ pair ∈ circuit.joins,
        circuit.checkWire pair.1 = .ok () ∧ circuit.checkWire pair.2 = .ok ()
  splices
    : ∀ pair ∈ circuit.splices,
        circuit.checkBit pair.1 = .ok () ∧ circuit.checkBit pair.2 = .ok ()

theorem wiresChecked_of_checkWires (h : circuit.checkWires = .ok ()) : circuit.WiresChecked := by
  simp only [checkWires, then_eq_ok, forM_eq_ok] at h
  obtain ⟨widths, joins, splices⟩ := h
  refine ⟨fun width member => ?_, joins, splices⟩
  · obtain ⟨i, found⟩ := List.getElem?_of_mem member
    have listed : (width, i) ∈ circuit.wires.zipIdx := by
      refine List.mem_of_getElem? (i := i) ?_
      rw [List.getElem?_zipIdx, found, Option.map_some, Nat.zero_add]
    have supported := widths _ listed
    split at supported
    · assumption
    · cases supported

end CircuitEntry

namespace DesignFile

variable {file : DesignFile}

/-- The circuits of a checked file have different names, by induction on the circuits. -/
theorem checkCircuitNames_names {circuits : List CircuitEntry} {earlier : List String}
    (h : checkCircuitNames earlier circuits = .ok ())
    : (circuits.map CircuitEntry.name).Nodup ∧ ∀ entry ∈ circuits, entry.name ∉ earlier := by
  induction circuits generalizing earlier with
  | nil => exact ⟨List.nodup_nil, nofun⟩
  | cons head rest ih =>
      rw [checkCircuitNames] at h
      split at h
      · cases h
      · next unseen =>
          obtain ⟨distinct, unlisted⟩ := ih h
          refine ⟨List.nodup_cons.mpr ⟨fun listed => ?_, distinct⟩, ?_⟩
          · obtain ⟨entry, member, same⟩ := List.mem_map.mp listed
            exact unlisted entry member (same ▸ List.mem_cons_self)
          · refine List.forall_mem_cons.mpr ⟨by simpa using unseen, fun entry member => ?_⟩
            exact fun listed => unlisted entry member (List.mem_cons_of_mem _ listed)

/-- What is known of a component of a checked file with some number of ends. -/
structure ComponentChecked [Arithmetic] (file : DesignFile) (circuit : CircuitEntry)
    (entry : ComponentEntry)
    (position count : Nat)
    : Prop where
  ends : file.endCount ⟨position, entry.type, circuit.name⟩ entry = .ok count
  length_le : entry.connections.length ≤ count
  connections
    : ∀ connection ∈ entry.connections, circuit.checkConnection connection = .ok ()

/-- What is known of a file without faults. -/
structure Checked [Arithmetic] (file : DesignFile) : Prop where
  circuitNames : (file.circuits.map CircuitEntry.name).Nodup
  entityNames : (file.entities.map EntityEntry.name).Nodup
  top : (file.findCircuit? file.top).isSome
  wires : ∀ circuit ∈ file.circuits, circuit.WiresChecked
  components
    : ∀ circuit ∈ file.circuits,
        ∀ position entry,
          circuit.components[position]? = some entry
          → ∃ count, file.ComponentChecked circuit entry position count

theorem checkComponent_checked [Arithmetic] {circuit : CircuitEntry} {entry : ComponentEntry}
    {position : Nat}
    (h : file.checkComponent circuit entry position = .ok ())
    : ∃ count, file.ComponentChecked circuit entry position count := by
  simp only [checkComponent, bind_eq_ok] at h
  obtain ⟨count, ends, h⟩ := h
  split at h
  · cases h
  · next few => exact ⟨count, ends, Nat.le_of_not_lt few, forM_eq_ok.1 h⟩

theorem checked_of_check [Arithmetic] (h : file.check = .ok ()) : file.Checked := by
  simp only [check, then_eq_ok] at h
  obtain ⟨circuitNames, entities, h⟩ := h
  split at h
  · cases h
  · next top =>
      have each (circuit : CircuitEntry) (member : circuit ∈ file.circuits)
          : circuit.checkWires = .ok ()
            ∧ ∀ pair ∈ circuit.components.zipIdx,
                file.checkComponent circuit pair.1 pair.2 = .ok () := by
        have checked := forM_eq_ok.1 h circuit member
        rwa [checkCircuit, then_eq_ok, forM_eq_ok] at checked
      refine
        {
          circuitNames := (checkCircuitNames_names circuitNames).1,
          entityNames := (checkEntities_names entities).1,
          top := by simpa [Option.isSome_iff_ne_none] using top,
          wires := fun circuit member =>
            CircuitEntry.wiresChecked_of_checkWires (each circuit member).1,
          components := fun circuit member position entry found => ?_
        }
      refine checkComponent_checked ((each circuit member).2 (entry, position) ?_)
      refine List.mem_of_getElem? (i := position) ?_
      rw [List.getElem?_zipIdx, found, Option.map_some, Nat.zero_add]

end DesignFile

end SchematicHdl
