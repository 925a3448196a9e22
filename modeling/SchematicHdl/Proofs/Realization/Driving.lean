import SchematicHdl.Proofs.Netlist.Interior
import SchematicHdl.Proofs.Realization.Resolve

/-! What an instance drives. Its outputs and inouts are bound to nets and dangling wires, apart from
the bubbles of an instantiated circuit: they are bound to the range that the instance has on the
bubble bus of the circuit around it.
-/

namespace SchematicHdl

open Hdl (Actual Expr Instance PortMap)
open Outcome

namespace Placement

variable {placement : Placement} {notes notes' : Notes}

/-- What a port that drives is bound to on the boundary of the circuit around it. -/
def boundary (placement : Placement) (port : Port) : List Expr :=
  match port.source with
  | .bubbles bus => placement.netlist.bubbleDrivers bus placement.part
  | _ => []

/-- The actual of a port that drives, by cases on the source of the port. -/
theorem outputActual_exprs {port : Port} (fits : port.Fits placement) {actual : Actual}
    (made : Succeeds (placement.outputActual port) notes actual notes')
    : placement.netlist.Splits notes'.openWires actual.exprs (placement.boundary port) := by
  let bare : Placement :=
    {
      placement with
        netlist := placement.netlist.interior,
        part := { placement.part with bubbles := .none }
    }
  have inside : bare.netlist.BubblesInside bare.part := by simp [bare, Netlist.BubblesInside]
  -- Ends are bound alike where there is no boundary.
  have ends {port : Port} (fits : port.Fits bare)
      (made : Succeeds (bare.outputActual port) notes actual notes')
      (apart : placement.boundary port = [])
      : placement.netlist.Splits notes'.openWires actual.exprs (placement.boundary port) := by
    rw [apart]
    refine .inside fun expr member => ?_
    obtain ⟨_, typed⟩ := ((outputActual_spec fits made).2.typed inside).exprs expr member
    exact Netlist.interior_of_hasWidth typed
  rcases port with ⟨name, width, declared, source, tie⟩
  cases source with
  | bubbles bus =>
      simp only [outputActual, succeeds_bind, succeeds_ofExcept, succeeds_pure] at made
      obtain ⟨expr, _, ⟨found, rfl⟩, rfl, rfl⟩ := made
      unfold bubbles at found
      split at found
      · next range reserved =>
          obtain rfl := Except.ok.inj found
          simp only [boundary, Netlist.bubbleDrivers, reserved]
          exact .outside
      · cases found
  | whole => exact ends fits made rfl
  | bitwise => exact ends fits made rfl
  | clockOf | tickOf | fixed => exact absurd made not_succeeds_throw

/-- The driving ports of an instance, one after the other. -/
theorem drivingMaps_exprs {ports : List Port} (fits : ∀ port ∈ ports, port.Fits placement)
    {maps : List PortMap}
    (made
      : Succeeds
          (ports.mapM (fun port => do return ⟨port.name, ← placement.outputActual port⟩)) notes
          maps notes')
    : List.Forall₂
        (fun port map =>
          placement.netlist.Splits notes'.openWires (PortMap.actual map).exprs
            (placement.boundary port))
        ports maps := by
  have step {port : Port} {notes notes' : Notes} {map : PortMap} (member : port ∈ ports)
      (made
        : Succeeds (do return PortMap.mk port.name (← placement.outputActual port)) notes map
            notes')
      : notes.openWires ⊆ notes'.openWires
        ∧ placement.netlist.Splits notes'.openWires map.actual.exprs (placement.boundary port) := by
    obtain ⟨actual, formed, rfl⟩ := bindPort_succeeds.1 made
    have fits := fits port member
    exact ⟨(outputActual_spec fits formed).1, outputActual_exprs fits formed⟩
  exact
    ((mapM_succeeds.1 made).forall₂_settled
      (fun notes notes' => notes.openWires ⊆ notes'.openWires)
      (fun _ => List.Subset.refl _) List.Subset.trans
      (fun port _ _ _ member made => (step member made).1)
      (fun port map last =>
        placement.netlist.Splits last.openWires (PortMap.actual map).exprs
          (placement.boundary port))
      (fun port _ _ _ _ member made within => (step member made).2.mono within)).2

/-- What the ports of one direction are bound to, among ports that have another direction or the
same, by induction on the ports.
-/
theorem bound_zip {ports : List Port} {maps : List PortMap} (length : ports.length = maps.length)
    (own direction : Direction)
    : ((ports.map (fun port => port.declaration own)).zip maps).flatMap
        (fun bound => if bound.1.direction = direction then bound.2.actual.exprs else [])
      = if own = direction then maps.flatMap (fun map => map.actual.exprs) else [] := by
  induction ports generalizing maps with
  | nil =>
      cases maps with
      | nil => simp
      | cons => cases length
  | cons port ports ih =>
      cases maps with
      | nil => cases length
      | cons map maps =>
          rw [List.map_cons, List.zip_cons_cons, List.flatMap_cons, ih (Nat.succ.inj length),
            List.flatMap_cons, Port.declaration]
          split <;> rfl

/-- Whatever is known of the driving ports of an instance one by one, what is bound to its outputs
and inouts is known in the same way.
-/
theorem instantiate_maps {form : Form} {inst : Instance}
    (made : Succeeds (placement.instantiate form) notes inst notes')
    : ∃ middle maps,
        Succeeds
            (form.drivingPorts.mapM (fun port => do
              return ⟨port.name, ← placement.outputActual port⟩))
            middle maps notes'
        ∧ ∀ R : Port → PortMap → Prop,
            List.Forall₂ R form.drivingPorts maps
            → ∃ outputs inouts,
                List.Forall₂ R form.outputs outputs
                ∧ List.Forall₂ R form.inouts inouts
                ∧ ∀ body,
                    inst.bound (form.unit body) .output
                        = outputs.flatMap (fun map => map.actual.exprs)
                      ∧ inst.bound (form.unit body) .inout
                        = inouts.flatMap (fun map => map.actual.exprs) := by
  obtain ⟨inputs, driven, middle, first, second, rfl⟩ := instantiate_succeeds.1 made
  refine ⟨middle, driven, second, fun R related => ?_⟩
  have paired : List.Forall₂ (fun _ _ => True) form.inputs inputs :=
    (mapM_succeeds.1 first).forall₂ fun _ _ _ _ _ _ => trivial
  obtain ⟨outputs, inouts, rfl, outputsRelated, inoutsRelated⟩ := forall₂_append_left related
  have sorted (body : Hdl.Architecture) (direction : Direction)
      : Instance.bound
          { label := placement.label, unit := form.name, generics := form.parameters,
            ports := inputs ++ (outputs ++ inouts) }
          (form.unit body) direction
        = (if .input = direction then inputs.flatMap (fun map => map.actual.exprs) else [])
          ++ (if .output = direction then outputs.flatMap (fun map => map.actual.exprs) else [])
          ++ if .inout = direction then inouts.flatMap (fun map => map.actual.exprs) else [] := by
    simp only [Instance.bound, Form.unit, List.append_assoc]
    rw [List.zip_append (by simpa using paired.length_eq),
      List.zip_append (by simpa using outputsRelated.length_eq), List.flatMap_append,
      List.flatMap_append, bound_zip paired.length_eq, bound_zip outputsRelated.length_eq,
      bound_zip inoutsRelated.length_eq]
  exact ⟨outputs, inouts, outputsRelated, inoutsRelated, fun body => by simp [sorted]⟩

/-- What an instance drives, inside the circuit and on its boundary. -/
theorem instantiate_bound {form : Form} (fits : form.Fits placement) {inst : Instance}
    (made : Succeeds (placement.instantiate form) notes inst notes') {openWires : List String}
    (within : notes'.openWires ⊆ openWires) (body : Hdl.Architecture)
    : placement.netlist.Splits openWires (inst.bound (form.unit body) .output)
        (form.outputs.flatMap placement.boundary)
      ∧ placement.netlist.Splits openWires (inst.bound (form.unit body) .inout)
          (form.inouts.flatMap placement.boundary) := by
  obtain ⟨middle, maps, driven, known⟩ := instantiate_maps made
  obtain ⟨outputs, inouts, outputsBound, inoutsBound, bound⟩ :=
    known _
      (drivingMaps_exprs (fun port member => fits port (List.mem_append_right _ member)) driven)
  rw [(bound body).1, (bound body).2]
  exact
    ⟨(Netlist.Splits.flatMap outputsBound).mono within,
      (Netlist.Splits.flatMap inoutsBound).mono within⟩

-----------------------------------------------------------------------------------------
-- The boundary of a form
-----------------------------------------------------------------------------------------

/-- What drives from an end of the part has no share of the boundary. -/
theorem boundary_of_fitsEnds {ends : List EndShape} {direction : Direction} {ports : List Port}
    (fits : ∀ port ∈ ports, port.FitsEnds ends direction)
    : ports.flatMap placement.boundary = [] := by
  refine List.flatMap_eq_nil_iff.mpr fun port member => ?_
  have fits := fits port member
  unfold Port.FitsEnds at fits
  unfold boundary
  split at fits <;> simp_all

/-- The ports of a circuit on one bus have the whole share of an instance of it. -/
theorem boundary_bubblePorts {child : Netlist} {bus : Direction}
    (reserved : Reserved (child.bubbles.get bus) (placement.part.bubbles.get bus))
    : (child.bubblePorts bus).flatMap placement.boundary
      = placement.netlist.bubbleDrivers bus placement.part := by
  unfold Netlist.bubblePorts
  simp only
  split
  · next none =>
      rw [none] at reserved
      cases found : placement.part.bubbles.get bus with
      | none => simp [Netlist.bubbleDrivers, found]
      | some range =>
          rw [found] at reserved
          exact absurd reserved.1 (Nat.lt_irrefl 0)
  · simp [boundary, Port.plain]

theorem boundary_pinPorts {child : Netlist} {direction : Direction}
    : (child.pinPorts direction).flatMap placement.boundary = [] := by
  refine List.flatMap_eq_nil_iff.mpr fun port member => ?_
  obtain ⟨⟨pin, endIndex⟩, -, made⟩ := List.mem_filterMap.mp member
  simp only at made
  split at made
  · obtain ⟨name, -, rfl⟩ := Option.map_eq_some_iff.mp made
    rfl
  · cases made

end Placement

/-- The ports of a definition have the bubbles of the part that it is instantiated for. -/
theorem Realization.Resolves.boundary_eq {hierarchy : Hierarchy} {library : Library}
    {placement : Placement} {dialect : Dialect} {realization : Realization}
    (resolves
      : Resolves hierarchy placement.mode dialect placement.part.component realization)
    (holds
      : Netlist.Holds library hierarchy.netlists placement.netlist placement.part.component
          placement.part)
    (supported : placement.part.component.Supported) (notInlined : realization.isInlined = false)
    (none : placement.part.category ≠ .subcircuit → placement.part.bubbles = .none)
    : realization.form.outputs.flatMap placement.boundary
        = placement.netlist.bubbleDrivers .output placement.part
      ∧ realization.form.inouts.flatMap placement.boundary
        = placement.netlist.bubbleDrivers .inout placement.part := by
  have leaf {ends : List EndShape} (fits : realization.form.FitsEnds ends)
      (category : placement.part.category ≠ .subcircuit)
      : realization.form.outputs.flatMap placement.boundary
          = placement.netlist.bubbleDrivers .output placement.part
        ∧ realization.form.inouts.flatMap placement.boundary
          = placement.netlist.bubbleDrivers .inout placement.part := by
    rw [Placement.boundary_of_fitsEnds fits.outputs, Placement.boundary_of_fitsEnds fits.inouts]
    simp [Netlist.bubbleDrivers, none category]
  cases resolves with
  | primitive kind =>
      simp only [Component.Supported, kind] at supported
      exact leaf (ofPrimitive_fitsEnds supported notInlined)
        (by simp [Part.category, Component.category, kind])
  | subcircuit kind found =>
      obtain ⟨child, there, reserved, -⟩ := holds.subcircuit _ kind
      obtain rfl := Option.some.inj (found.symm.trans there)
      simp only [ofNetlist, Netlist.form, List.flatMap_append]
      rw [Placement.boundary_bubblePorts (reserved .output),
        Placement.boundary_bubblePorts (reserved .inout), Placement.boundary_pinPorts,
        List.append_nil]
      exact ⟨rfl, rfl⟩
  | external kind =>
      exact leaf (ExternalEntity.form_fitsEnds _)
        (by simp [Part.category, Component.category, kind])

end SchematicHdl
