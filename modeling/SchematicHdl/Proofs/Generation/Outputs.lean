import Mathlib.Data.List.Nodup
import SchematicHdl.Proofs.Generation.Targets
import SchematicHdl.Proofs.Hierarchy.Bubbles
import SchematicHdl.Proofs.Hierarchy.PortNames
import SchematicHdl.Proofs.Realization.Driving

/-! Outputs of generated circuits. Each bit of an output pin and each index of the output bubbles
has one driver, an assignment or an output of an instance, and nothing drives an input.
-/

namespace SchematicHdl.Generation

open Hdl (Architecture DesignUnit Expr Instance SignalDecl Statement)
open Netlist (outputName?)
open SchematicHdl.Outcome

-----------------------------------------------------------------------------------------
-- Output pins
-----------------------------------------------------------------------------------------

theorem portBit_names {name other : String} {width position : Nat}
    : (portBit name width position).Names other ↔ name = other := by
  unfold portBit
  split
  · simp
  · simp [Expr.Names, Expr.uses, Hdl.NameUse.name]

/-- The bits of a port are driven apart, also where the port is a single bit. -/
theorem portBit_drives {name : String} {width position bit : Nat} (listed : position < width)
    (inside : bit < width)
    : (portBit name width position).Drives name bit ↔ position = bit := by
  unfold portBit
  split
  · next single =>
      simp only [Expr.drives_ref, true_iff]
      omega
  · simp

variable {netlist : Netlist} {name : String} {resolved : ResolvedEnd}

/-- An output pin is driven as a whole or bit by bit. -/
theorem outputPinStatements_targets
    : (outputPinStatements netlist name resolved).flatMap Statement.targets = [.ref name]
      ∨ (outputPinStatements netlist name resolved).flatMap Statement.targets
        = (List.range resolved.width).map (portBit name resolved.width) := by
  unfold outputPinStatements
  split
  · exact .inl rfl
  · refine .inr ?_
    rw [ResolvedEnd.width, List.range_eq_range', ← List.zipIdx_map_snd, List.map_map,
      List.flatMap_map]
    exact (List.map_eq_flatMap ..).symm

theorem outputPin_names {target : Expr}
    (member : target ∈ (outputPinStatements netlist name resolved).flatMap Statement.targets)
    {other : String} (used : target.Names other)
    : name = other := by
  rcases outputPinStatements_targets with whole | each
  · rw [whole] at member
    obtain rfl := List.mem_singleton.mp member
    exact Expr.names_ref.1 used
  · rw [each] at member
    obtain ⟨position, -, rfl⟩ := List.mem_map.mp member
    exact portBit_names.1 used

theorem outputPin_once {bit : Nat} (inside : bit < resolved.width)
    : ((outputPinStatements netlist name resolved).flatMap Statement.targets).countP
        (fun target => target.Drives name bit)
      = 1 := by
  rcases outputPinStatements_targets with whole | each
  · rw [whole]
    simp
  · rw [each, List.countP_map]
    refine Eq.trans (List.countP_congr fun position listed => ?_)
      (List.count_eq_one_of_mem List.nodup_range (List.mem_range.mpr inside))
    simp [portBit_drives (List.mem_range.mp listed) inside]

theorem names_of_mem_namedDrivers {part : Part} {driver : Expr}
    (member : driver ∈ netlist.namedDrivers part) {other : String} (used : driver.Names other)
    : outputName? part = some other := by
  unfold Netlist.namedDrivers at member
  split at member
  · next found named _ => exact named.trans (congrArg some (outputPin_names member used))
  · cases member

/-- The pins of different names are driven apart. -/
theorem namedDrivers_once {parts : List Part} (distinct : (parts.filterMap outputName?).Nodup)
    {part : Part} (held : part ∈ parts) (named : outputName? part = some name)
    (found : part.end? 0 = some resolved) {bit : Nat} (inside : bit < resolved.width)
    : (parts.flatMap netlist.namedDrivers).countP (fun driver => driver.Drives name bit) = 1 := by
  obtain ⟨front, back, rfl⟩ := List.append_of_mem held
  have none (others : List Part) (absent : name ∉ others.filterMap outputName?)
      : (others.flatMap netlist.namedDrivers).countP (fun driver => driver.Drives name bit)
        = 0 := by
    apply Expr.countP_drives_eq_zero
    intro driver member used
    apply absent
    obtain ⟨other, listed, drives⟩ := List.mem_flatMap.mp member
    exact List.mem_filterMap.mpr ⟨other, listed, names_of_mem_namedDrivers drives used⟩
  rw [List.filterMap_append, List.filterMap_cons_some named] at distinct
  have before := none front fun member =>
    List.disjoint_of_nodup_append distinct member List.mem_cons_self
  have after := none back (List.nodup_cons.mp (List.nodup_append.mp distinct).2.1).1
  have here
      : ((outputPinStatements netlist name resolved).flatMap Statement.targets).countP
          (fun driver => driver.Drives name bit) = 1 :=
    outputPin_once inside
  rw [List.flatMap_append, List.flatMap_cons, List.countP_append, List.countP_append, before, after,
    Netlist.namedDrivers, named, found, here]

theorem map_name_pinPorts
    : (netlist.pinPorts .output).map Port.name = netlist.parts.filterMap outputName? := by
  rw [Netlist.map_name_pinPorts, Netlist.pinNamesOf, List.filterMap_filter]
  refine List.filterMap_congr fun part _ => ?_
  simp only [decide_eq_true_eq, outputName?]

/-- The port of an output pin is that of a part with an end of its width. -/
theorem mem_pinPorts {port : Port} (member : port ∈ netlist.pinPorts .output)
    : ∃ part ∈ netlist.parts,
        part.category = .pin .output
        ∧ part.portName = some port.name
        ∧ port.width = (part.end? 0).elim 1 ResolvedEnd.width := by
  obtain ⟨⟨pin, endIndex⟩, numbered, made⟩ := List.mem_filterMap.mp member
  simp only at made
  split at made
  · next category =>
      obtain ⟨name, named, rfl⟩ := Option.map_eq_some_iff.mp made
      have listed := List.mem_of_getElem? (List.mem_zipIdx_iff_getElem?.1 numbered)
      exact ⟨pin, List.mem_of_mem_filter listed, category, named, rfl⟩
  · cases made

end SchematicHdl.Generation

namespace SchematicHdl.Part

theorem isPin_of_isInstantiated {part : Part} (instantiated : part.isInstantiated = true)
    : part.isPin = false := by
  apply Netlist.isPin_eq_false
  intro direction category
  simp [isInstantiated, category] at instantiated

theorem isInstantiated_of_subcircuit {part : Part} (category : part.category = .subcircuit)
    : part.isInstantiated = true := by
  have plain : part.component.isInlined = false := by
    unfold Part.category Component.category at category
    unfold Component.isInlined
    split at category <;> simp_all
  simp [isInstantiated, category, plain]

end SchematicHdl.Part

namespace SchematicHdl.Generation

open Hdl (Architecture DesignUnit Expr Instance SignalDecl Statement)
open Netlist (outputName?)
open SchematicHdl.Outcome

variable {netlist : Netlist}

-----------------------------------------------------------------------------------------
-- Instances
-----------------------------------------------------------------------------------------

/-- The instances of an architecture, each with the part that it is for and what realizes the part.
There is one for each part that is instantiated, for the definition of its realization, and it fits
that definition if the bubble busses hold the ranges of the parts.
-/
structure Instantiates (hierarchy : Hierarchy) (options : Options) (netlist : Netlist)
    (placed : List (Part × Realization)) (architecture : Architecture)
    : Prop where
  parts : (placed.map Prod.fst).Perm (netlist.parts.filter Part.isInstantiated)
  instances
    : List.Forall₂
        (fun pair inst =>
          Realization.resolve hierarchy options.clockMode options.dialect pair.1.component
            = .ok pair.2
          ∧ ∀ body,
              Instance.LinksIf netlist.BubblesHeld
                (((netlist.form options.clockMode).unit architecture).scope [])
                (pair.2.form.unit body) inst)
        placed (architecture.statements.filterMap Statement.instance?)

/-- The parts that instances are for are instantiated parts of the circuit. -/
theorem Instantiates.mem_parts {hierarchy : Hierarchy} {options : Options}
    {placed : List (Part × Realization)} {architecture : Architecture}
    (instantiates : Instantiates hierarchy options netlist placed architecture)
    {pair : Part × Realization} (listed : pair ∈ placed)
    : pair.1 ∈ netlist.parts ∧ pair.1.isInstantiated = true :=
  List.mem_filter.mp (instantiates.parts.mem_iff.mp (List.mem_map_of_mem listed))

/-- The instance is what a part becomes through what realizes it, with dangling wires that are
there.
-/
structure MadeFor (hierarchy : Hierarchy) (options : Options) (netlist : Netlist)
    (openWires : List String) (pair : Part × Realization) (inst : Instance)
    : Prop where
  resolved
    : Realization.resolve hierarchy options.clockMode options.dialect pair.1.component
      = .ok pair.2
  notInlined : pair.2.isInlined = false
  made
    : ∃ label notes notes',
        Succeeds
          ((Placement.mk netlist pair.1 label options.clockMode).instantiate pair.2.form) notes inst
          notes'
        ∧ notes'.openWires ⊆ openWires

/-- The instances of a formed architecture, each with what it is made for. -/
theorem Formed.instantiates {hierarchy : Hierarchy} {options : Options} {openWires : List String}
    {architecture : Architecture} (formed : Formed hierarchy options netlist openWires architecture)
    : ∃ placed,
        Instantiates hierarchy options netlist placed architecture
        ∧ List.Forall₂ (MadeFor hierarchy options netlist openWires) placed
            (architecture.statements.filterMap Statement.instance?) := by
  obtain ⟨parts, perm, realizes⟩ := formed.realizes
  obtain ⟨placed, rfl, chosen⟩ := forall₂_exists realizes
  refine ⟨placed, ⟨perm, ?_⟩, ?_⟩
  · rw [formed.scope_eq]
    refine forall₂_imp_mem chosen fun pair listed _ _ ⟨resolved, _, _, links⟩ => ?_
    have held := List.mem_of_mem_filter (perm.mem_iff.mp (List.mem_map_of_mem listed))
    exact
      ⟨resolved, fun body => (links body).mono (fun inside => inside pair.1 held) (fun _ => id) rfl⟩
  · exact chosen.imp fun _ _ ⟨resolved, notInlined, made, _⟩ => ⟨resolved, notInlined, made⟩

/-- The outputs of a circuit are driven once: each of their bits has one driver, an assignment or an
output of an instance, and no inout of an instance is bound to them. Neither kind is bound to an
input of the circuit, and there is no hand-written text, which could drive anything.
-/
structure DrivesOnce (form : Form) (units : List DesignUnit) (architecture : Architecture)
    : Prop where
  outputs
    : ∀ port ∈ form.outputs,
        ∀ bit < port.width,
          (architecture.drivers units).countP (fun driver => driver.Drives port.name bit) = 1
  inouts
    : ∀ port ∈ form.outputs,
        ∀ shared ∈ architecture.bound units .inout, ¬ shared.Names port.name
  inputs
    : ∀ port ∈ form.inputs,
        ∀ driver ∈ architecture.drivers units ++ architecture.bound units .inout,
          ¬ driver.Names port.name
  structural : ∀ text, .raw text ∉ architecture.statements

section Analyzed

variable {library : Library} {hierarchy : Hierarchy} {options : Options} {openWires : List String}
  (sound : hierarchy.Sound library) (analyzed : netlist ∈ hierarchy.netlists)
include sound analyzed

/-- An instance drives nets and dangling wires, and the bubbles of its part. -/
theorem instance_splits {part : Part} (held : part ∈ netlist.parts)
    (none : part.category ≠ .subcircuit → part.bubbles = .none) {realization : Realization}
    (resolved
      : Realization.resolve hierarchy options.clockMode options.dialect part.component
        = .ok realization)
    (notInlined : realization.isInlined = false) {label : String} {notes notes' : Notes}
    {inst : Instance}
    (made
      : Succeeds
          ((Placement.mk netlist part label options.clockMode).instantiate realization.form) notes
          inst notes')
    (within : notes'.openWires ⊆ openWires) (body : Architecture)
    : netlist.Splits openWires (inst.bound (realization.form.unit body) .output)
        (netlist.bubbleDrivers .output part)
      ∧ netlist.Splits openWires (inst.bound (realization.form.unit body) .inout)
          (netlist.bubbleDrivers .inout part) := by
  obtain ⟨holds, supported⟩ := sound.part analyzed held
  have resolves := Realization.resolve_resolves resolved
  let placement : Placement := ⟨netlist, part, label, options.clockMode⟩
  obtain ⟨fits, -⟩ := resolves.fits sound placement holds supported notInlined
  have known
      : Realization.Resolves hierarchy placement.mode options.dialect placement.part.component
          realization :=
    resolves
  obtain ⟨outputs, inouts⟩ := known.boundary_eq holds supported notInlined none
  have bound := Placement.instantiate_bound fits made within body
  rwa [outputs, inouts] at bound

/-- The instances of an architecture drive nets and dangling wires, and the bubbles of the parts
that they are for.
-/
theorem instances_split
    (none
      : ∀ part ∈ netlist.parts,
          part.isPin = false → part.category ≠ .subcircuit → part.bubbles = .none)
    {architecture : Architecture} {placed : List (Part × Realization)}
    (instantiates : Instantiates hierarchy options netlist placed architecture)
    (made
      : List.Forall₂ (MadeFor hierarchy options netlist openWires) placed
          (architecture.statements.filterMap Statement.instance?))
    (bodies : Realization → Architecture)
    : ∀ direction ≠ .input,
        netlist.Splits openWires
          (architecture.bound (placed.map (fun pair => pair.2.form.unit (bodies pair.2)))
            direction)
          (placed.flatMap (fun pair => netlist.bubbleDrivers direction pair.1)) := by
  have driven
      : List.Forall₂
          (fun pair inst =>
            ∀ direction ≠ .input,
              netlist.Splits openWires
                (Instance.bound inst (pair.2.form.unit (bodies pair.2)) direction)
                (netlist.bubbleDrivers direction pair.1))
          placed (architecture.statements.filterMap Statement.instance?) := by
    apply forall₂_imp_mem made
    intro pair listed inst _ madeFor
    obtain ⟨held, instantiated⟩ := instantiates.mem_parts listed
    obtain ⟨label, notes, notes', made, within⟩ := madeFor.made
    have notPin := Part.isPin_of_isInstantiated instantiated
    obtain ⟨outputs, inouts⟩ :=
      instance_splits sound analyzed held (none _ held notPin) madeFor.resolved madeFor.notInlined
        made within (bodies pair.2)
    intro direction driving
    cases direction with
    | input => exact absurd rfl driving
    | output => exact outputs
    | inout => exact inouts
  intro direction driving
  refine .flatMap ((forall₂_zip_map driven _).imp fun pair bound found => ?_)
  obtain ⟨unit, inst⟩ := bound
  obtain ⟨rfl, found⟩ := found
  exact found direction driving

end Analyzed

-----------------------------------------------------------------------------------------
-- The boundary
-----------------------------------------------------------------------------------------

section Boundary

variable {placed : List (Part × Realization)}

/-- What drives the boundary where parts are placed, and through instances. -/
def boundaryDrivers (netlist : Netlist) (placed : List (Part × Realization)) : List Expr :=
  netlist.parts.flatMap netlist.placedDrivers
    ++ placed.flatMap (fun pair => netlist.bubbleDrivers .output pair.1)

/-- A range of a bubble bus is driven where the bus is a port. -/
theorem names_of_bubbleDrivers {bus : Direction}
    (fill : BubbleRange.Fill (Netlist.rangesOf netlist.parts bus) (netlist.bubbles.get bus))
    {part : Part} (held : part ∈ netlist.parts) {driver : Expr}
    (member : driver ∈ netlist.bubbleDrivers bus part) {name : String} (used : driver.Names name)
    : name ∈ (netlist.bubblePorts bus).map Port.name := by
  obtain rfl := Netlist.names_of_mem_bubbleDrivers member used
  obtain ⟨range, reserved, -⟩ := List.mem_map.mp member
  have listed : range ∈ Netlist.rangesOf netlist.parts bus :=
    List.mem_filterMap.mpr ⟨part, held, Option.mem_toList.mp reserved⟩
  have some : netlist.bubbles.get bus ≠ 0 := by
    have within := (fill.bounds listed).2
    omega
  simp [Netlist.bubblePorts, some, Port.plain]

variable
  (none
    : ∀ part ∈ netlist.parts,
        part.isPin = false → part.category ≠ .subcircuit → part.bubbles = .none)
  (parts : (placed.map Prod.fst).Perm (netlist.parts.filter Part.isInstantiated))

include none parts in
/-- Every part has its bubbles driven in one of the two ways. -/
theorem countP_boundaryDrivers (p : Expr → Bool)
    : (boundaryDrivers netlist placed).countP p
      = (netlist.parts.flatMap netlist.namedDrivers).countP p
        + (netlist.parts.flatMap (netlist.bubbleDrivers .output)).countP p := by
  have instances
      : (placed.flatMap (fun pair => netlist.bubbleDrivers .output pair.1)).countP p
        = ((netlist.parts.filter Part.isInstantiated).flatMap
            (netlist.bubbleDrivers .output)).countP p := by
    rw [← (parts.flatMap_right _).countP_eq, List.flatMap_map]
  rw [boundaryDrivers, List.countP_append, instances]
  simp only [List.countP_flatMap, Function.comp_def]
  rw [sum_map_filter, sum_map_add, sum_map_add]
  refine congrArg List.sum (List.map_congr_left fun part held => ?_)
  simp only [Netlist.placedDrivers, List.countP_append]
  cases instantiated : part.isInstantiated with
  | true => simp [Part.isPin_of_isInstantiated instantiated]
  | false =>
      cases pin : part.isPin with
      | true => simp
      | false =>
          have notInstance : part.category ≠ .subcircuit := by
            intro category
            rw [Part.isInstantiated_of_subcircuit category] at instantiated
            cases instantiated
          simp [Netlist.bubbleDrivers, none part held pin notInstance]

include parts in
theorem names_of_boundaryDrivers (mode : ClockMode)
    (fill
      : BubbleRange.Fill (Netlist.rangesOf netlist.parts .output) (netlist.bubbles.get .output))
    {driver : Expr} (member : driver ∈ boundaryDrivers netlist placed) {name : String}
    (used : driver.Names name)
    : name ∈ (netlist.form mode).outputs.map Port.name := by
  have bubbles {part : Part} (held : part ∈ netlist.parts)
      (drives : driver ∈ netlist.bubbleDrivers .output part)
      : name ∈ (netlist.form mode).outputs.map Port.name := by
    simp only [Netlist.form, List.map_append, List.mem_append]
    exact .inl (names_of_bubbleDrivers fill held drives used)
  rcases List.mem_append.mp member with here | instantiated
  · obtain ⟨part, held, drives⟩ := List.mem_flatMap.mp here
    rcases List.mem_append.mp drives with named | bubble
    · have listed : name ∈ (netlist.pinPorts .output).map Port.name := by
        rw [map_name_pinPorts]
        exact List.mem_filterMap.mpr ⟨part, held, names_of_mem_namedDrivers named used⟩
      simp only [Netlist.form, List.map_append, List.mem_append]
      exact .inr listed
    · split at bubble
      · exact bubbles held bubble
      · cases bubble
  · obtain ⟨pair, listed, drives⟩ := List.mem_flatMap.mp instantiated
    have held := (parts.mem_iff.mp (List.mem_map_of_mem listed))
    exact bubbles (List.mem_of_mem_filter held) drives

include parts in
/-- What drives is inside the circuit or a part of an output. -/
theorem names_of_drivers (mode : ClockMode)
    (fill
      : BubbleRange.Fill (Netlist.rangesOf netlist.parts .output) (netlist.bubbles.get .output))
    {openWires : List String} {drivers : List Expr}
    (splits : netlist.Splits openWires drivers (boundaryDrivers netlist placed)) {driver : Expr}
    (member : driver ∈ drivers) {name : String} (used : driver.Names name)
    : name ∈ netlist.interiorNames openWires
      ∨ name ∈ (netlist.form mode).outputs.map Port.name := by
  rcases splits.interior_or_mem member with interior | boundary
  · exact .inl (interior name used)
  · exact .inr (names_of_boundaryDrivers parts mode fill boundary used)

include parts in
/-- What could drive is inside the circuit or a part of an inout. -/
theorem names_of_inouts (mode : ClockMode)
    (fill : BubbleRange.Fill (Netlist.rangesOf netlist.parts .inout) (netlist.bubbles.get .inout))
    {openWires : List String} {bound : List Expr}
    (splits
      : netlist.Splits openWires bound
          (placed.flatMap (fun pair => netlist.bubbleDrivers .inout pair.1)))
    {driver : Expr} (member : driver ∈ bound) {name : String} (used : driver.Names name)
    : name ∈ netlist.interiorNames openWires
      ∨ name ∈ (netlist.form mode).inouts.map Port.name := by
  rcases splits.interior_or_mem member with interior | boundary
  · exact .inl (interior name used)
  · obtain ⟨pair, listed, drives⟩ := List.mem_flatMap.mp boundary
    have held := List.mem_of_mem_filter (parts.mem_iff.mp (List.mem_map_of_mem listed))
    exact .inr (names_of_bubbleDrivers fill held drives used)

/-- Ports and signals have different names. -/
theorem Formed.apart {hierarchy : Hierarchy} {options : Options} {openWires : List String}
    {architecture : Architecture} (formed : Formed hierarchy options netlist openWires architecture)
    : ((netlist.form options.clockMode).ports.map Port.name
        ++ netlist.interiorNames openWires).Nodup := by
  have distinct := (List.nodup_append.mp (List.Nodup.of_map _ formed.distinct)).1
  rw [formed.signals_eq] at distinct
  simpa [netSignals, openSignals, Netlist.interiorNames, Function.comp_def] using distinct

include none parts in
/-- What drives a bit of an output is all on the boundary, an output pin or bubbles. -/
theorem countP_drivers {hierarchy : Hierarchy} {options : Options} {openWires : List String}
    {architecture : Architecture} (formed : Formed hierarchy options netlist openWires architecture)
    {units : List DesignUnit}
    (splits
      : netlist.Splits openWires (architecture.drivers units) (boundaryDrivers netlist placed))
    {port : Port} (member : port ∈ (netlist.form options.clockMode).outputs) (bit : Nat)
    : (architecture.drivers units).countP (fun driver => driver.Drives port.name bit)
      = (netlist.parts.flatMap netlist.namedDrivers).countP
            (fun driver => driver.Drives port.name bit)
        + (netlist.parts.flatMap (netlist.bubbleDrivers .output)).countP
            (fun driver => driver.Drives port.name bit) := by
  have apart := formed.apart
  simp only [Form.ports, Form.drivingPorts, List.map_append] at apart
  have boundary : port.name ∉ netlist.interiorNames openWires := fun interior =>
    (List.nodup_append.mp apart).2.2 _
      (List.mem_append_right _ (List.mem_append_left _ (List.mem_map_of_mem member))) _ interior rfl
  rw [splits.countP_drives boundary, countP_boundaryDrivers none parts]

end Boundary

-----------------------------------------------------------------------------------------
-- Outputs
-----------------------------------------------------------------------------------------

section Outputs

variable {mode : ClockMode}
  (distinct : ((netlist.form mode).outputs.map Port.name).Nodup)
  (fill
    : BubbleRange.Fill (Netlist.rangesOf netlist.parts .output) (netlist.bubbles.get .output))
include distinct

/-- Bubbles are driven by bubbles, and output pins by output pins. -/
theorem outputs_apart
    : ∀ name ∈ (netlist.bubblePorts .output).map Port.name,
        name ∉ netlist.parts.filterMap outputName? := by
  simp only [Netlist.form, List.map_append, map_name_pinPorts] at distinct
  exact fun name here there => List.disjoint_of_nodup_append distinct here there

include fill

/-- Each index of the output bubbles is driven by the part that holds it. -/
theorem bubble_once {port : Port} (member : port ∈ netlist.bubblePorts .output) {bit : Nat}
    (inside : bit < port.width)
    : (netlist.parts.flatMap netlist.namedDrivers).countP
          (fun driver => driver.Drives port.name bit)
        + (netlist.parts.flatMap (netlist.bubbleDrivers .output)).countP
            (fun driver => driver.Drives port.name bit)
      = 1 := by
  have apart := outputs_apart distinct port.name (List.mem_map_of_mem member)
  have named
      : (netlist.parts.flatMap netlist.namedDrivers).countP
          (fun driver => driver.Drives port.name bit) = 0 := by
    apply Expr.countP_drives_eq_zero
    intro driver drives used
    apply apart
    obtain ⟨part, held, drives⟩ := List.mem_flatMap.mp drives
    exact List.mem_filterMap.mpr ⟨part, held, names_of_mem_namedDrivers drives used⟩
  rw [named, Nat.zero_add]
  unfold Netlist.bubblePorts at member
  simp only at member
  split at member
  · cases member
  · obtain rfl := List.mem_singleton.mp member
    exact Netlist.countP_drives_bubbles fill inside

/-- Each bit of an output pin is driven by the pin. -/
theorem pin_once {library : Library} {netlists : List Netlist}
    (holds
      : ∀ part ∈ netlist.parts, Netlist.Holds library netlists netlist part.component part)
    {port : Port} (member : port ∈ netlist.pinPorts .output) {bit : Nat}
    (inside : bit < port.width)
    : (netlist.parts.flatMap netlist.namedDrivers).countP
          (fun driver => driver.Drives port.name bit)
        + (netlist.parts.flatMap (netlist.bubbleDrivers .output)).countP
            (fun driver => driver.Drives port.name bit)
      = 1 := by
  obtain ⟨part, held, category, portName, width⟩ := mem_pinPorts member
  have named : outputName? part = some port.name := by
    rw [Netlist.outputName?, if_pos category, portName]
  have bubbles
      : (netlist.parts.flatMap (netlist.bubbleDrivers .output)).countP
          (fun driver => driver.Drives port.name bit) = 0 := by
    apply Expr.countP_drives_eq_zero
    intro driver drives used
    obtain ⟨other, listed, drives⟩ := List.mem_flatMap.mp drives
    apply outputs_apart distinct port.name (names_of_bubbleDrivers fill listed drives used)
    exact List.mem_filterMap.mpr ⟨part, held, named⟩
  obtain ⟨resolved, ends, -⟩ := (holds part held).pin _ (Netlist.kind_of_category category)
  have found : part.end? 0 = some resolved := by
    rw [Part.end?, ends]
    rfl
  rw [width, found] at inside
  rw [bubbles, Nat.add_zero]
  simp only [Netlist.form, List.map_append, map_name_pinPorts] at distinct
  exact namedDrivers_once (List.nodup_append.mp distinct).2.1 held named found inside

end Outputs

section Analyzed

variable {library : Library} {top : CircuitRef} {hierarchy : Hierarchy} {options : Options}

/-- The targets of an architecture and its instances make up the boundary of the circuit. -/
theorem drivesOnce_of_splits [Machine] (wellFormed : library.WellFormed)
    (analyzed : Hierarchy.analyze library top = .ok hierarchy)
    (reachable : netlist ∈ hierarchy.netlists)
    (fill
      : ∀ bus,
          BubbleRange.Fill (Netlist.rangesOf netlist.parts bus) (netlist.bubbles.get bus))
    {openWires : List String} {architecture : Architecture}
    (formed : Formed hierarchy options netlist openWires architecture)
    {placed : List (Part × Realization)}
    (parts : (placed.map Prod.fst).Perm (netlist.parts.filter Part.isInstantiated))
    {units : List DesignUnit}
    (drivers
      : netlist.Splits openWires (architecture.drivers units) (boundaryDrivers netlist placed))
    (inouts
      : netlist.Splits openWires (architecture.bound units .inout)
          (placed.flatMap (fun pair => netlist.bubbleDrivers .inout pair.1)))
    : DrivesOnce (netlist.form options.clockMode) units architecture := by
  have holds (part : Part) (held : part ∈ netlist.parts) :=
    ((Hierarchy.sound_of_analyze wellFormed analyzed).part reachable held).1
  have none (part : Part) (held : part ∈ netlist.parts) :=
    Hierarchy.analyze_bubbles_none wellFormed analyzed reachable held
  have apart := formed.apart
  simp only [Form.ports, Form.drivingPorts, List.map_append] at apart
  obtain ⟨ports, -, signals⟩ := List.nodup_append.mp apart
  obtain ⟨-, driving, inputsApart⟩ := List.nodup_append.mp ports
  obtain ⟨outputs, -, inoutsApart⟩ := List.nodup_append.mp driving
  have driven {driver : Expr} (member : driver ∈ architecture.drivers units) {name : String}
      (used : driver.Names name) :=
    names_of_drivers parts options.clockMode (fill .output) drivers member used
  have shared {driver : Expr} (member : driver ∈ architecture.bound units .inout) {name : String}
      (used : driver.Names name) :=
    names_of_inouts parts options.clockMode (fill .inout) inouts member used
  constructor
  · intro port member bit inside
    rw [countP_drivers none parts formed drivers member bit]
    rcases List.mem_append.mp member with bubble | pin
    · exact bubble_once outputs (fill .output) bubble inside
    · exact pin_once outputs (fill .output) holds pin inside
  · intro port member driver bound used
    have output := List.mem_map_of_mem (f := Port.name) member
    rcases shared bound used with interior | inout
    · exact signals _ (List.mem_append_right _ (List.mem_append_left _ output)) _ interior rfl
    · exact inoutsApart _ output _ inout rfl
  · intro port member driver bound used
    have input := List.mem_map_of_mem (f := Port.name) member
    have kept := signals _ (List.mem_append_left _ input) port.name
    have apart := inputsApart _ input port.name
    rcases List.mem_append.mp bound with drives | inout
    · rcases driven drives used with interior | output
      · exact kept interior rfl
      · exact apart (List.mem_append_left _ output) rfl
    · rcases shared inout used with interior | other
      · exact kept interior rfl
      · exact apart (List.mem_append_right _ other) rfl
  · intro text member
    cases formed.structural _ member

theorem structuralArchitecture_targets (sound : hierarchy.Sound library)
    (reachable : netlist ∈ hierarchy.netlists) {run run' : Run} {architecture : Architecture}
    (succeeds
      : Succeeds (structuralArchitecture hierarchy options netlist) run architecture run')
    : ∃ openWires,
        architecture.signals = netSignals netlist ++ openSignals openWires
        ∧ netlist.Splits openWires (architecture.statements.flatMap Statement.targets)
            (netlist.parts.flatMap netlist.placedDrivers) := by
  obtain ⟨draft, formed, -⟩ := structuralArchitecture_succeeds succeeds
  exact draftArchitecture_targets sound reachable formed

/-- What an architecture drives, by its own statements and through its instances, whatever the
bodies of the definitions that it instantiates.
-/
theorem structuralArchitecture_splits [Machine] (wellFormed : library.WellFormed)
    (analyzed : Hierarchy.analyze library top = .ok hierarchy)
    (reachable : netlist ∈ hierarchy.netlists) {run run' : Run} {architecture : Architecture}
    (succeeds
      : Succeeds (structuralArchitecture hierarchy options netlist) run architecture run')
    : ∃ openWires placed,
        Formed hierarchy options netlist openWires architecture
        ∧ Instantiates hierarchy options netlist placed architecture
        ∧ ∀ bodies : Realization → Architecture,
            netlist.Splits openWires
              (architecture.drivers (placed.map (fun pair => pair.2.form.unit (bodies pair.2))))
              (boundaryDrivers netlist placed)
            ∧ netlist.Splits openWires
                (architecture.bound (placed.map (fun pair => pair.2.form.unit (bodies pair.2)))
                  .inout)
                (placed.flatMap (fun pair => netlist.bubbleDrivers .inout pair.1)) := by
  have sound := Hierarchy.sound_of_analyze wellFormed analyzed
  obtain ⟨openWires, formed⟩ := structuralArchitecture_formed sound reachable succeeds
  obtain ⟨wires, signals_eq, targets⟩ := structuralArchitecture_targets sound reachable succeeds
  obtain rfl : wires = openWires := by
    have same := List.append_cancel_left (signals_eq.symm.trans formed.signals_eq)
    simpa [openSignals, Function.comp_def] using congrArg (List.map SignalDecl.name) same
  obtain ⟨placed, instantiates, made⟩ := formed.instantiates
  refine ⟨wires, placed, formed, instantiates, fun bodies => ?_⟩
  have bound :=
    instances_split sound reachable
      (fun part held => Hierarchy.analyze_bubbles_none wellFormed analyzed reachable held)
      instantiates made bodies
  exact ⟨targets.append (bound .output (by decide)), bound .inout (by decide)⟩

end Analyzed

/-- A circuit with an inverter at one output pin and nothing at another, and one that instantiates
it, with an output pin that it drives half of and one that nothing is connected to.
-/
def outputSteps : List BuildStep :=
  [
    .circuit "Leaf",
    .wire 0 1,
    .wire 0 1,
    .pin 0 .input "a" 1,
    .primitive 0 .not .empty,
    .pin 0 .output "y" 1,
    .pin 0 .output "spare" 1,
    .connect 0 0 0 ⟨0, 0⟩,
    .connect 0 1 0 ⟨0, 0⟩,
    .connect 0 1 1 ⟨0, 1⟩,
    .connect 0 2 0 ⟨0, 1⟩,
    .circuit "Main",
    .wire 1 1,
    .pin 1 .input "d" 1,
    .subcircuit 1 ⟨0, 0, "Leaf"⟩,
    .pin 1 .output "q" 2,
    .pin 1 .output "loose" 2,
    .connect 1 1 1 ⟨1, 0⟩,
    .connectBits 1 2 0 [none, some (⟨1, 0⟩, 0)]
  ]

/-- The architecture of the top circuit, formed at the start of a run. -/
def formedTop? [Machine] (steps : List BuildStep) (top : CircuitRef) (options : Options)
    : Option (Hierarchy × Netlist × Architecture) := do
  let (_, hierarchy) ← Hierarchy.analyzeBuilt? steps top
  let netlist ← hierarchy.netlists.getLast?
  let architecture ←
    ((structuralArchitecture hierarchy options netlist).run .start).1.toOption
  return (hierarchy, netlist, architecture)

end SchematicHdl.Generation
