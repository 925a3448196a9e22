import SchematicHdl.Proofs.Hierarchy.ClockOutputs
import SchematicHdl.Proofs.Realization.Driving

/-! Coverage of the ends that drive. Every connected bit of such an end is driven by what is bound
to a port of the instance, or by an assignment of an inlined component, with two exceptions: an end
of an instance whose pin became a bubble, and a bit of a gate at which none of the inputs is
connected.
-/

namespace SchematicHdl

open Hdl (Actual Expr Instance PortMap Statement)
open Net (Point)
open Outcome

-----------------------------------------------------------------------------------------
-- Driven points
-----------------------------------------------------------------------------------------

namespace Netlist

variable {netlist : Netlist} {drivers more : List Expr} {point : Point} {resolved : ResolvedEnd}

/-- The bit of the net is driven by one of the expressions. -/
def DrivesPoint (netlist : Netlist) (drivers : List Expr) (point : Point) : Prop :=
  ∃ driver ∈ drivers, driver.Drives (netlist.nets.nameAt point.net) point.bit

instance (netlist : Netlist) (drivers : List Expr) (point : Point)
    : Decidable (netlist.DrivesPoint drivers point) :=
  inferInstanceAs
    (Decidable (∃ driver ∈ drivers, driver.Drives (netlist.nets.nameAt point.net) point.bit))

theorem DrivesPoint.mono (driven : netlist.DrivesPoint drivers point) (within : drivers ⊆ more)
    : netlist.DrivesPoint more point := by
  obtain ⟨driver, listed, drives⟩ := driven
  exact ⟨driver, within listed, drives⟩

/-- All connected bits of the end are driven. -/
def DrivesEnd (netlist : Netlist) (drivers : List Expr) (resolved : ResolvedEnd) : Prop :=
  ∀ point, some point ∈ resolved.points → netlist.DrivesPoint drivers point

theorem DrivesEnd.mono (driven : netlist.DrivesEnd drivers resolved) (within : drivers ⊆ more)
    : netlist.DrivesEnd more resolved :=
  fun point connected => (driven point connected).mono within

theorem pointExpr_drives (netlist : Netlist) (point : Point)
    : (netlist.pointExpr point).Drives (netlist.nets.nameAt point.net) point.bit := by
  unfold pointExpr
  dsimp only
  split <;> simp

/-- A slice drives each of its bits. -/
theorem sliceExpr_drives (netlist : Netlist) (first : Point) {width i : Nat} (inside : i < width)
    : (netlist.sliceExpr first width).Drives (netlist.nets.nameAt first.net) (first.bit + i) := by
  unfold sliceExpr
  dsimp only
  split
  · simp
  · exact Expr.drives_range.mpr ⟨rfl, by omega, by omega⟩

theorem drivesEnd_of_endExpr? {expr : Expr} (slice : netlist.endExpr? resolved = some expr)
    (listed : expr ∈ drivers)
    : netlist.DrivesEnd drivers resolved := by
  obtain ⟨first, based, rfl⟩ := Option.map_eq_some_iff.mp slice
  obtain ⟨-, each⟩ := Net.getElem?_of_continuousBase? based
  intro point connected
  obtain ⟨i, found⟩ := List.getElem?_of_mem connected
  have inside := (List.getElem?_eq_some_iff.mp found).1
  obtain rfl : _ = point := by simpa [each i inside] using found
  exact ⟨_, listed, netlist.sliceExpr_drives first inside⟩

/-- All connected bits are driven where each of them is driven by itself. -/
theorem drivesEnd_of_points
    (each : ∀ point, some point ∈ resolved.points → netlist.pointExpr point ∈ drivers)
    : netlist.DrivesEnd drivers resolved :=
  fun point connected => ⟨_, each point connected, netlist.pointExpr_drives point⟩

theorem drivesEnd_of_isUnconnected (unconnected : resolved.isUnconnected = true)
    : netlist.DrivesEnd drivers resolved := by
  intro point connected
  have none := List.all_eq_true.mp unconnected _ connected
  cases none

end Netlist

-----------------------------------------------------------------------------------------
-- Instances
-----------------------------------------------------------------------------------------

/-- The ports of one direction. -/
def Form.portsOf (form : Form) : Direction → List Port
  | .input => form.inputs
  | .output => form.outputs
  | .inout => form.inouts

namespace Placement

variable {placement : Placement} {notes notes' : Notes}

/-- What is bound to an output port drives the whole end. -/
theorem outputEnd_drivesEnd {endIndex : Nat} {resolved : ResolvedEnd}
    (found : placement.part.end? endIndex = some resolved) {actual : Actual}
    (made : Succeeds (placement.outputEnd endIndex) notes actual notes')
    : placement.netlist.DrivesEnd actual.exprs resolved := by
  simp only [outputEnd, succeeds_bind, succeeds_ofExcept] at made
  obtain ⟨same, _, ⟨there, rfl⟩, made⟩ := made
  obtain rfl := Option.some.inj (found.symm.trans (endAt_eq_ok.1 there))
  split at made
  · next unconnected => exact Netlist.drivesEnd_of_isUnconnected unconnected
  split at made
  · next expr slice =>
      obtain ⟨rfl, rfl⟩ := succeeds_pure.1 made
      exact Netlist.drivesEnd_of_endExpr? slice List.mem_cons_self
  · simp only [succeeds_bind, succeeds_pure] at made
    obtain ⟨bits, _, made, rfl, rfl⟩ := made
    refine Netlist.drivesEnd_of_points fun point connected => ?_
    have paired
        : List.Forall₂
            (fun bit expr => ∀ point, bit = some point → expr = placement.netlist.pointExpr point)
            resolved.points bits := by
      refine (mapM_succeeds.1 made).forall₂ fun bit _ expr _ _ step point same => ?_
      subst same
      exact (succeeds_pure.1 step).1.symm
    obtain ⟨expr, listed, same⟩ := forall₂_mem_right paired.flip connected
    exact same point rfl ▸ listed

/-- An instance drives the ends that its outputs and inouts take their values from. -/
theorem instantiate_drivesEnd {form : Form} {inst : Instance}
    (made : Succeeds (placement.instantiate form) notes inst notes') {direction : Direction}
    (driving : direction.drives = true) {port : Port} (member : port ∈ form.portsOf direction)
    {endIndex : Nat} (source : port.source = .whole endIndex) {resolved : ResolvedEnd}
    (found : placement.part.end? endIndex = some resolved) (body : Hdl.Architecture)
    : placement.netlist.DrivesEnd (inst.bound (form.unit body) direction) resolved := by
  obtain ⟨middle, maps, driven, known⟩ := instantiate_maps made
  have covered
      : List.Forall₂
          (fun port map =>
            Port.source port = .whole endIndex
            → placement.netlist.DrivesEnd (PortMap.actual map).exprs resolved)
          form.drivingPorts maps := by
    refine (mapM_succeeds.1 driven).forall₂ fun port _ map _ _ step source => ?_
    simp only [succeeds_bind, succeeds_pure, outputActual, source] at step
    obtain ⟨actual, _, made, rfl, rfl⟩ := step
    exact outputEnd_drivesEnd found made
  obtain ⟨outputs, inouts, outputsCovered, inoutsCovered, bound⟩ := known _ covered
  have listed {ports : List Port} {maps : List PortMap} (member : port ∈ ports)
      (covered
        : List.Forall₂
            (fun port map =>
              Port.source port = .whole endIndex
              → placement.netlist.DrivesEnd (PortMap.actual map).exprs resolved)
            ports maps)
      : placement.netlist.DrivesEnd (maps.flatMap (fun map => map.actual.exprs)) resolved := by
    obtain ⟨map, inside, drives⟩ := forall₂_mem_right covered.flip member
    exact (drives source).mono fun expr among => List.mem_flatMap.mpr ⟨map, inside, among⟩
  cases direction with
  | input => cases driving
  | output => exact (bound body).1 ▸ listed member outputsCovered
  | inout => exact (bound body).2 ▸ listed member inoutsCovered

end Placement

-----------------------------------------------------------------------------------------
-- Forms
-----------------------------------------------------------------------------------------

/-- Every end that drives is the source of a port of its direction. -/
def Form.CoversEnds (ends : List EndShape) (form : Form) : Prop :=
  ∀ endIndex shape,
    ends[endIndex]? = some shape
    → shape.direction.drives = true
    → ∃ port ∈ form.portsOf shape.direction, port.source = .whole endIndex

namespace Selector

/-- Behind ends that do not drive, an end that drives is one of the others. -/
theorem getElem?_of_drives {front rest : List EndShape}
    (reads : ∀ shape ∈ front, shape.direction.drives = false) {endIndex : Nat} {shape : EndShape}
    (found : (front ++ rest)[endIndex]? = some shape) (drives : shape.direction.drives = true)
    : ∃ i, endIndex = front.length + i ∧ rest[i]? = some shape := by
  rw [List.getElem?_append] at found
  split at found
  · rw [reads shape (List.mem_of_getElem? found)] at drives
    cases drives
  · next beyond => exact ⟨endIndex - front.length, by omega, found⟩

/-- Before ends that do not drive, an end that drives is one of the numbered ones. -/
theorem lt_of_drives {count width : Nat} {rest : List EndShape}
    (reads : ∀ shape ∈ rest, shape.direction.drives = false) {endIndex : Nat} {shape : EndShape}
    (found : (List.replicate count (.output width) ++ rest)[endIndex]? = some shape)
    (drives : shape.direction.drives = true)
    : endIndex < count ∧ shape = .output width := by
  rw [List.getElem?_append] at found
  split at found
  · next inside =>
      rw [List.length_replicate] at inside
      rw [List.getElem?_replicate, if_pos inside] at found
      exact ⟨inside, (Option.some.inj found).symm⟩
  · rw [reads shape (List.mem_of_getElem? found)] at drives
    cases drives

theorem enableEnds_drives {attributes : Attributes}
    : ∀ shape ∈ Primitive.enableEnds attributes, shape.direction.drives = false := by
  unfold Primitive.enableEnds
  split <;> simp [EndShape.input, Direction.drives]

theorem multiplexer_coversEnds (attributes : Attributes)
    : (multiplexerForm attributes).CoversEnds
        (Primitive.multiplexer.endsFor attributes (count attributes)) := by
  intro endIndex shape found drives
  have reads (shape : EndShape)
      (member
        : shape
          ∈ List.replicate (count attributes) (.input attributes.width)
              ++ [.input attributes.selectBits] ++ Primitive.enableEnds attributes)
      : shape.direction.drives = false := by
    rcases List.mem_append.mp member with front | enable
    · rcases List.mem_append.mp front with data | select
      · rw [List.eq_of_mem_replicate data]
        rfl
      · rw [List.mem_singleton.mp select]
        rfl
    · exact enableEnds_drives shape enable
  obtain ⟨i, rfl, atEnd⟩ := getElem?_of_drives reads found drives
  obtain ⟨rfl, rfl⟩ : i = 0 ∧ shape = .output attributes.width := by
    cases i with
    | zero => exact ⟨rfl, (Option.some.inj atEnd).symm⟩
    | succ => simp at atEnd
  refine ⟨_, List.mem_singleton.mpr rfl, ?_⟩
  cases enable : attributes.hasEnable <;>
    simp [Port.sizedBy, Port.plain, Primitive.enableEnds, enableCount, count, enable]

theorem demultiplexer_coversEnds (attributes : Attributes)
    : (demultiplexerForm attributes).CoversEnds
        (Primitive.demultiplexer.endsFor attributes (count attributes)) := by
  intro endIndex shape found drives
  have reads (shape : EndShape)
      (member
        : shape
          ∈ [EndShape.input attributes.selectBits]
              ++ (Primitive.enableEnds attributes ++ [.input attributes.width]))
      : shape.direction.drives = false := by
    rcases List.mem_append.mp member with select | other
    · rw [List.mem_singleton.mp select]
      rfl
    · rcases List.mem_append.mp other with enable | data
      · exact enableEnds_drives shape enable
      · rw [List.mem_singleton.mp data]
        rfl
  simp only [Primitive.endsFor, List.append_assoc] at found
  obtain ⟨inside, rfl⟩ := lt_of_drives reads found drives
  exact ⟨_, List.mem_map_of_mem (List.mem_range.mpr inside), rfl⟩

theorem decoder_coversEnds (attributes : Attributes)
    : (decoderForm attributes).CoversEnds
        (Primitive.decoder.endsFor attributes (count attributes)) := by
  intro endIndex shape found drives
  have reads (shape : EndShape)
      (member
        : shape
          ∈ [EndShape.input attributes.selectBits] ++ Primitive.enableEnds attributes)
      : shape.direction.drives = false := by
    rcases List.mem_append.mp member with select | enable
    · rw [List.mem_singleton.mp select]
      rfl
    · exact enableEnds_drives shape enable
  simp only [Primitive.endsFor, List.append_assoc] at found
  obtain ⟨inside, rfl⟩ := lt_of_drives reads found drives
  exact ⟨_, List.mem_map.mpr ⟨endIndex, List.mem_range.mpr inside, rfl⟩, rfl⟩

theorem priorityEncoder_coversEnds (attributes : Attributes)
    : (priorityEncoderForm attributes).CoversEnds
        (Primitive.priorityEncoder.endsFor attributes (count attributes)) := by
  intro endIndex shape found drives
  have reads (shape : EndShape)
      (member : shape ∈ List.replicate (count attributes) (.input 1))
      : shape.direction.drives = false := by
    rw [List.eq_of_mem_replicate member]
    rfl
  obtain ⟨i, rfl, atEnd⟩ := getElem?_of_drives reads found drives
  rw [List.length_replicate]
  match i, atEnd with
  | 0, atEnd =>
      obtain rfl := Option.some.inj atEnd
      exact ⟨_, List.mem_cons_self, rfl⟩
  | 1, atEnd =>
      obtain rfl := Option.some.inj atEnd
      cases drives
  | 2, atEnd =>
      obtain rfl := Option.some.inj atEnd
      exact ⟨_, List.mem_cons_of_mem _ List.mem_cons_self, rfl⟩
  | 3, atEnd =>
      obtain rfl := Option.some.inj atEnd
      exact ⟨_, List.mem_cons_of_mem _ (List.mem_cons_of_mem _ List.mem_cons_self), rfl⟩
  | _ + 4, atEnd => simp at atEnd

end Selector

theorem Register.form_coversEnds (attributes : Attributes)
    : (Register.form attributes).CoversEnds (Primitive.register.ends attributes) := by
  intro endIndex shape found drives
  match endIndex, found with
  | 0, found =>
      obtain rfl := Option.some.inj found
      exact ⟨_, List.mem_singleton.mpr rfl, rfl⟩
  | 1, found | 2, found | 3, found | 4, found =>
      obtain rfl := Option.some.inj found
      cases drives
  | _ + 5, found => simp [Primitive.ends, Primitive.endsFor] at found

/-- The ports of an external entity are its ends. -/
theorem ExternalEntity.form_coversEnds (entity : ExternalEntity)
    : entity.form.CoversEnds (entity.ports.map (fun port => ⟨port.direction, port.width⟩)) := by
  intro endIndex shape found drives
  rw [List.getElem?_map, Option.map_eq_some_iff] at found
  obtain ⟨declared, there, rfl⟩ := found
  have listed
      : Port.plain declared.name declared.width (.whole endIndex)
        ∈ entity.formPorts declared.direction :=
    List.mem_filterMap.mpr ⟨(declared, endIndex), List.mem_zipIdx_iff_getElem?.mpr there, by simp⟩
  refine ⟨.plain declared.name declared.width (.whole endIndex), ?_, rfl⟩
  cases direction : declared.direction with
  | input => simp [direction, Direction.drives] at drives
  | output | inout => simpa [Form.portsOf, ExternalEntity.form, direction] using listed

/-- A component with its own definition has a port for each end that drives. -/
theorem Realization.ofPrimitive_coversEnds {type : Primitive} {attributes : Attributes}
    (supported : type.shapeFault? attributes = none)
    (notInlined : (ofPrimitive type attributes).isInlined = false)
    : (ofPrimitive type attributes).form.CoversEnds (type.ends attributes) := by
  cases type with
  | multiplexer =>
      exact Primitive.ends_eq_endsFor supported rfl ▸ Selector.multiplexer_coversEnds attributes
  | demultiplexer =>
      exact Primitive.ends_eq_endsFor supported rfl ▸ Selector.demultiplexer_coversEnds attributes
  | decoder =>
      exact Primitive.ends_eq_endsFor supported rfl ▸ Selector.decoder_coversEnds attributes
  | priorityEncoder =>
      exact Primitive.ends_eq_endsFor supported rfl ▸ Selector.priorityEncoder_coversEnds attributes
  | register => exact Register.form_coversEnds attributes
  | and | or | xor | nand | nor | xnor | not | constant => cases notInlined

/-- The pin that an end of an instance belongs to became a bubble. -/
def Part.OnBubble (netlists : List Netlist) (part : Part) (endIndex : Nat) (direction : Direction)
    : Prop :=
  ∃ target child pin,
    part.component.kind = .subcircuit target
    ∧ Netlist.ofCircuit? netlists target.position = some child
    ∧ child.pins[endIndex]? = some pin
    ∧ pin.category = .pin direction
    ∧ pin.portName = none

/-- A circuit with a connected inout pin cannot be generated. -/
theorem Netlist.portName_eq_none {netlist : Netlist} (realizable : netlist.isRealizable = true)
    {pin : Part} (boundary : pin ∈ netlist.pins) (category : pin.category = .pin .inout)
    : pin.portName = none := by
  simp only [isRealizable, Bool.not_eq_true', List.any_eq_false] at realizable
  simpa [category] using realizable pin boundary

/-- An end of an instance that drives is the source of a port, or its pin became a bubble. -/
theorem Realization.Resolves.port_or_bubble {hierarchy : Hierarchy} {library : Library}
    (sound : hierarchy.Sound library) {mode : ClockMode} {dialect : Dialect} {netlist : Netlist}
    {part : Part} {realization : Realization}
    (resolves : Resolves hierarchy mode dialect part.component realization)
    (holds : Netlist.Holds library hierarchy.netlists netlist part.component part)
    (supported : part.component.Supported) (notInlined : realization.isInlined = false)
    {endIndex : Nat} {resolved : ResolvedEnd} (found : part.end? endIndex = some resolved)
    (drives : resolved.direction.drives = true)
    : (∃ port ∈ realization.form.portsOf resolved.direction, port.source = .whole endIndex)
      ∨ part.OnBubble hierarchy.netlists endIndex resolved.direction := by
  obtain ⟨shape, shaped, attached⟩ := forall₂_getElem? holds.ends.flip found
  rw [attached.direction_eq] at drives ⊢
  cases resolves with
  | primitive kind =>
      rw [Library.ends, kind] at shaped
      rw [Component.Supported, kind] at supported
      exact .inl (ofPrimitive_coversEnds supported notInlined endIndex shape shaped drives)
  | external kind =>
      rw [Library.ends, kind] at shaped
      exact .inl (ExternalEntity.form_coversEnds _ endIndex shape shaped drives)
  | @subcircuit target child kind known realizable =>
      obtain ⟨member, there⟩ := Netlist.ofCircuit?_mem known
      have childSound := sound.netlists child member
      simp only [Library.ends, kind] at shaped
      rw [← there, ← childSound.circuit_eq] at shaped
      obtain ⟨pin, atPin, category⟩ := forall₂_getElem? childSound.pin_directions shaped
      cases named : pin.portName with
      | none => exact .inr ⟨target, child, pin, kind, known, atPin, category, named⟩
      | some name =>
          cases direction : shape.direction with
          | input => simp [direction, Direction.drives] at drives
          | output =>
              have listed
                  : Port.plain name ((pin.end? 0).elim 1 ResolvedEnd.width) (.whole endIndex)
                    ∈ child.pinPorts .output := by
                refine List.mem_filterMap.mpr ⟨(pin, endIndex), ?_, ?_⟩
                · exact List.mem_zipIdx_iff_getElem?.mpr atPin
                · simp [category, direction, named]
              exact .inl ⟨_, List.mem_append_right _ listed, rfl⟩
          | inout =>
              have unnamed :=
                Netlist.portName_eq_none realizable (List.mem_of_getElem? atPin)
                  (category.trans (congrArg _ direction))
              simp [unnamed] at named

end SchematicHdl
