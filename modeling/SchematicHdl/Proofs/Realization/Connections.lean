import SchematicHdl.Proofs.Hdl.PortMaps
import SchematicHdl.Proofs.Netlist.Values
import SchematicHdl.Proofs.Realization.Operands
import SchematicHdl.Proofs.Realization.Totality

/-! What the ports of an instance are connected to. Each bit of an input port gets the value of the
point of its end, or the tie value of the port, and each bit of an output port drives the point of
its end, or a dangling wire of its own; it makes no difference whether the actual is a constant, a
name, a slice or a list of bits, and in which language it is written.
-/

namespace SchematicHdl

open Hdl (Actual Association Bit BitPlace Expr Instance Level PortMap)
open Net (Point)
open Outcome

-----------------------------------------------------------------------------------------
-- Dangling wires
-----------------------------------------------------------------------------------------

/-- No net is called like a dangling wire. -/
theorem openWireName_ne_nameAt (number : Nat) (netlist : Netlist) (net : Nat)
    : openWireName number ≠ netlist.nets.nameAt net := by
  intro same
  have texts := congrArg String.toList same
  unfold Net.Table.nameAt Net.signalName at texts
  split at texts <;> simp [openWireName, toString] at texts

/-- A dangling wire has one bit. -/
theorem Netlist.widthOf_openWireName (netlist : Netlist) (number : Nat)
    : netlist.widthOf (openWireName number) = 1 := by
  have other : netlist.netNamed? (openWireName number) = none := by
    refine List.find?_eq_none.mpr fun net _ => ?_
    simpa using (openWireName_ne_nameAt number netlist net).symm
  rw [widthOf, other]
  rfl

-----------------------------------------------------------------------------------------
-- Bound ports
-----------------------------------------------------------------------------------------

/-- The point of the first bit of an end. -/
def Part.firstPoint? (part : Part) (endIndex : Nat) : Option Point :=
  (part.end? endIndex).bind (fun resolved => resolved.points[0]?.join)

/-- The points of the bits of a port that takes its value from an end, or from ends of one bit. -/
def Part.boundPoints? (part : Part) : PortSource → Option (List (Option Point))
  | .whole endIndex => some ((part.end? endIndex).elim [] ResolvedEnd.points)
  | .bitwise ends => some (ends.map part.firstPoint?)
  | _ => none

/-- The levels of points, with a tie value for the bits that are not connected. -/
def tiedLevels (value : Point → Level) (tie : Bit) (points : List (Option Point)) : List Level :=
  points.map (fun point => (point.map value).getD (.ofBit tie))

/-- Places for bits, one for each: that of its point, or a dangling wire of its own. -/
inductive Fills (place : Point → BitPlace)
    : List (Option Point) → List String → List BitPlace → Prop
  | nil : Fills place [] [] []
  | point {point points wires places} (rest : Fills place points wires places)
    : Fills place (some point :: points) wires (place point :: places)
  | hole {wire points wires places} (rest : Fills place points wires places)
    : Fills place (none :: points) (wire :: wires) (⟨wire, 0⟩ :: places)

theorem Fills.cons {place : Point → BitPlace} {point? : Option Point}
    {points : List (Option Point)} {wires more : List String} {first : BitPlace}
    {places : List BitPlace} (head : Fills place [point?] wires [first])
    (tail : Fills place points more places)
    : Fills place (point? :: points) (wires ++ more) (first :: places) := by
  cases head with
  | point rest =>
      cases rest
      exact .point tail
  | hole rest =>
      cases rest
      exact .hole tail

/-- The formal port of the map is the port, and its bits get the levels of their points in either
language.
-/
structure Port.Receives (placement : Placement) (port : Port) (map : PortMap) : Prop where
  formal_eq : map.formal = port.name
  bits
    : ∀ points,
        placement.part.boundPoints? port.source = some points
        → points.length = port.width
          ∧ ∀ value dialect,
              (map.associations dialect).flatMap
                  (Association.bits (Expr.eval (placement.netlist.valuation value)))
              = (tiedLevels value port.tie points).zipIdx

/-- The formal port of the map is the port, and its bits drive their points or dangling wires in
either language. Where no bit is connected, nothing is driven.
-/
structure Port.Drives (placement : Placement) (port : Port) (map : PortMap) (wires : List String)
    : Prop where
  formal_eq : map.formal = port.name
  bits
    : ∀ points,
        placement.part.boundPoints? port.source = some points
        → points.length = port.width
          ∧ (points.all Option.isNone = true → map.actual = .unconnected ∧ wires = [])
          ∧ (points.all Option.isNone = false
              → ∃ places,
                  Fills placement.netlist.place points wires places
                  ∧ ∀ dialect,
                      (map.associations dialect).flatMap
                          (Association.bits (Expr.places placement.netlist.widthOf))
                      = places.zipIdx)

namespace Placement

variable {placement : Placement} {notes notes' : Notes}

-----------------------------------------------------------------------------------------
-- Input ports
-----------------------------------------------------------------------------------------

/-- A bit that is tied where it is not connected. -/
theorem eval_tied (value : Point → Level) (tie : Bit) {point : Option Point}
    (rooted : ∀ connected, point = some connected → placement.netlist.nets.Rooted connected)
    : ((point.map placement.netlist.pointExpr).getD (.bit tie)).eval
          (placement.netlist.valuation value)
      = [(point.map value).getD (.ofBit tie)] := by
  cases point with
  | none => exact Expr.eval_bit _ tie
  | some connected => exact Netlist.eval_pointExpr value (rooted connected rfl)

/-- A filled constant stands for bits of which none is connected. -/
theorem eval_filled (value : Point → Level) (tie : Bit) {points : List (Option Point)}
    (none : points.all Option.isNone = true)
    : (Expr.filled tie (.fixed points.length)).eval (placement.netlist.valuation value)
      = tiedLevels value tie points := by
  have tied : tiedLevels value tie points = points.map (fun _ => Level.ofBit tie) := by
    refine List.map_congr_left fun point listed => ?_
    rw [Option.isNone_iff_eq_none.mp (List.all_eq_true.mp none point listed)]
    rfl
  rw [tied, List.map_const', Expr.eval]
  rfl

/-- The first bit of an end, and the point that it is connected to. -/
theorem bit?_first {endIndex width : Nat}
    (has : placement.part.HasEnd placement.netlist endIndex width)
    : placement.bit? endIndex 0
        = .ok ((placement.part.firstPoint? endIndex).map placement.netlist.pointExpr)
      ∧ ∀ point,
          placement.part.firstPoint? endIndex = some point
          → placement.netlist.nets.Rooted point := by
  obtain ⟨direction, resolved, found, attached⟩ := has
  rw [Part.firstPoint?, found, Option.bind_some]
  refine ⟨bit?_eq found 0, fun point first => attached.rooted point ?_⟩
  exact List.mem_of_getElem? (Option.join_eq_some_iff.mp first)

theorem inputEnd_levels {endIndex : Nat} {tie : Bit} {resolved : ResolvedEnd}
    (found : placement.part.end? endIndex = some resolved)
    (rooted : ∀ point, some point ∈ resolved.points → placement.netlist.nets.Rooted point)
    {actual : Actual} (made : placement.inputEnd endIndex tie = .ok actual) (value : Point → Level)
    : actual.bitwise (Expr.eval (placement.netlist.valuation value))
      = (tiedLevels value tie resolved.points).map (fun level => [level]) := by
  simp only [inputEnd, endAt_eq_ok.2 found, bind, Except.bind] at made
  split at made
  · next unconnected =>
      obtain rfl := pure_eq_ok.1 made
      rw [Actual.bitwise, ResolvedEnd.width, eval_filled value tie unconnected]
  split at made
  · next expr slice =>
      obtain rfl := pure_eq_ok.1 made
      obtain ⟨first, points, evaluates⟩ := Netlist.eval_endExpr? rooted slice
      simp only [Actual.bitwise, evaluates, points, tiedLevels, List.map_map]
      rfl
  · obtain rfl := pure_eq_ok.1 made
    rw [Actual.bitwise, tiedLevels, List.map_map, List.map_map]
    refine List.map_congr_left fun point listed => ?_
    have here (connected : Point) (same : point = some connected)
        : placement.netlist.nets.Rooted connected :=
      rooted connected (same ▸ listed)
    have tied := eval_tied value tie here
    cases point <;> exact tied

/-- The actual of an input port that is bound to ends holds the level of each bit. -/
theorem inputActual_levels {port : Port} (fits : port.Fits placement) {actual : Actual}
    (made : Succeeds (placement.inputActual port) notes actual notes')
    {points : List (Option Point)} (bound : placement.part.boundPoints? port.source = some points)
    : points.length = port.width
      ∧ ∀ value,
          actual.bitwise (Expr.eval (placement.netlist.valuation value))
          = (tiedLevels value port.tie points).map (fun level => [level]) := by
  unfold Port.Fits at fits
  simp only [inputActual] at made
  cases source : port.source <;> simp only [source] at fits made bound
  case whole endIndex =>
    obtain ⟨direction, resolved, found, attached⟩ := fits
    obtain rfl : resolved.points = points := by simpa [Part.boundPoints?, found] using bound
    obtain ⟨formed, -⟩ := succeeds_ofExcept.1 made
    exact ⟨attached.width_eq, inputEnd_levels found attached.rooted formed⟩
  case bitwise ends =>
    obtain ⟨several, length, has⟩ := fits
    obtain rfl := Option.some.inj bound
    refine ⟨by simpa using length, fun value => ?_⟩
    have bits
        : placement.firstBits ends
          = .ok
              ((ends.map placement.part.firstPoint?).map (fun point =>
                point.map placement.netlist.pointExpr)) := by
      rw [List.map_map]
      exact mapM_eq_map fun endIndex member => (bit?_first (has endIndex member)).1
    simp only [succeeds_bind, succeeds_ofExcept, bits] at made
    obtain ⟨_, _, ⟨⟨⟩, rfl⟩, made⟩ := made
    split at made
    · next none =>
        obtain ⟨rfl, -⟩ := succeeds_pure.1 made
        have none : (ends.map placement.part.firstPoint?).all Option.isNone = true := by
          simpa [Function.comp_def] using none
        have width : port.width = (ends.map placement.part.firstPoint?).length := by
          simpa using length.symm
        rw [Actual.bitwise, width, eval_filled value port.tie none]
    · obtain ⟨rfl, -⟩ := succeeds_pure.1 made
      simp only [Actual.bitwise, tiedLevels, List.map_map]
      exact List.map_congr_left fun endIndex member =>
        eval_tied value port.tie (bit?_first (has endIndex member)).2
  all_goals cases bound

-----------------------------------------------------------------------------------------
-- Output ports
-----------------------------------------------------------------------------------------

/-- A bit that is not connected drives a new dangling wire. -/
theorem orOpenWire_fills {point? : Option Point}
    (rooted : ∀ point, point? = some point → placement.netlist.nets.Rooted point) {expr : Expr}
    (made
      : Succeeds (orOpenWire (point?.map placement.netlist.pointExpr)) notes expr notes')
    : ∃ wires,
        notes.Adds wires notes'
        ∧ ∃ place,
            expr.places placement.netlist.widthOf = [place]
            ∧ Fills placement.netlist.place [point?] wires [place] := by
  cases point? with
  | some point =>
      obtain ⟨rfl, rfl⟩ := succeeds_pure.1 made
      exact
        ⟨[], Notes.adds_nil rfl, _, Netlist.places_pointExpr (rooted point rfl), .point .nil⟩
  | none =>
      obtain ⟨rfl, rfl⟩ := openWire_succeeds.1 made
      refine ⟨_, notes.adds_withOpenWire, _, ?_, .hole .nil⟩
      rw [Expr.places, Netlist.widthOf_openWireName]
      rfl

/-- Bits that are formed one by one drive their points or dangling wires, by induction on the bits.
-/
theorem mapM_fills {α : Type} {items : List α} {bit : α → PlacementM Expr}
    (pointOf : α → Option Point)
    (each
      : ∀ item ∈ items,
          ∀ notes expr notes',
            Succeeds (bit item) notes expr notes'
            → Succeeds (orOpenWire ((pointOf item).map placement.netlist.pointExpr)) notes expr
                notes')
    (rooted
      : ∀ item ∈ items,
          ∀ point, pointOf item = some point → placement.netlist.nets.Rooted point)
    {bits : List Expr} (made : Succeeds (items.mapM bit) notes bits notes')
    : ∃ wires places,
        notes.Adds wires notes'
        ∧ bits.map (Expr.places placement.netlist.widthOf) = places.map (fun place => [place])
        ∧ Fills placement.netlist.place (items.map pointOf) wires places := by
  have threaded := mapM_succeeds.1 made
  clear made
  induction threaded with
  | nil => exact ⟨[], [], Notes.adds_nil rfl, rfl, .nil⟩
  | cons head _ ih =>
      obtain ⟨here, later⟩ := List.forall_mem_cons.mp each
      obtain ⟨first, others⟩ := List.forall_mem_cons.mp rooted
      obtain ⟨wires, adds, place, stands, fills⟩ := orOpenWire_fills first (here _ _ _ head)
      obtain ⟨more, places, further, rest, filled⟩ := ih later others
      refine ⟨wires ++ more, place :: places, adds.append further, ?_, fills.cons filled⟩
      rw [List.map_cons, stands, rest, List.map_cons]

/-- What an actual of an output port drives: nothing if none of its bits is connected, and otherwise
the points of its bits, filled up with dangling wires.
-/
def DrivesBits (placement : Placement) (points : List (Option Point)) (actual : Actual)
    (wires : List String)
    : Prop :=
  (points.all Option.isNone = true → actual = .unconnected ∧ wires = [])
  ∧ (points.all Option.isNone = false
      → ∃ places,
          Fills placement.netlist.place points wires places
          ∧ actual.bitwise (Expr.places placement.netlist.widthOf)
            = places.map (fun place => [place]))

theorem outputEnd_drivesBits {endIndex : Nat} {resolved : ResolvedEnd}
    (found : placement.part.end? endIndex = some resolved)
    (rooted : ∀ point, some point ∈ resolved.points → placement.netlist.nets.Rooted point)
    {actual : Actual} (made : Succeeds (placement.outputEnd endIndex) notes actual notes')
    : ∃ wires, notes.Adds wires notes' ∧ placement.DrivesBits resolved.points actual wires := by
  simp only [outputEnd, succeeds_bind, succeeds_ofExcept, endAt_eq_ok.2 found] at made
  obtain ⟨_, _, ⟨⟨⟩, rfl⟩, made⟩ := made
  split at made
  · next unconnected =>
      obtain ⟨rfl, rfl⟩ := succeeds_pure.1 made
      refine ⟨[], Notes.adds_nil rfl, fun _ => ⟨rfl, rfl⟩, fun connected => ?_⟩
      rw [ResolvedEnd.isUnconnected, connected] at unconnected
      cases unconnected
  next connected =>
  have some : resolved.points.all Option.isNone = false := Bool.eq_false_iff.mpr connected
  have drives {wires : List String} {places : List BitPlace}
      (fills : Fills placement.netlist.place resolved.points wires places)
      (stands
        : actual.bitwise (Expr.places placement.netlist.widthOf)
          = places.map (fun place => [place]))
      : placement.DrivesBits resolved.points actual wires :=
    ⟨fun none => absurd none connected, fun _ => ⟨places, fills, stands⟩⟩
  split at made
  · next expr slice =>
      obtain ⟨rfl, rfl⟩ := succeeds_pure.1 made
      obtain ⟨first, points, -, stands⟩ := Netlist.places_endExpr? rooted slice
      refine ⟨[], Notes.adds_nil rfl, drives ?_ (by rw [Actual.bitwise, stands])⟩
      rw [points]
      induction first.consecutive resolved.width with
      | nil => exact .nil
      | cons point rest ih => exact .point ih
  · simp only [succeeds_bind, succeeds_pure] at made
    obtain ⟨bits, _, made, rfl, rfl⟩ := made
    obtain ⟨wires, places, adds, stands, fills⟩ :=
      mapM_fills id (fun _ _ _ _ _ step => step)
        (fun point? listed point same => rooted point (same ▸ listed)) made
    rw [List.map_id] at fills
    exact ⟨wires, adds, drives fills stands⟩

/-- Nothing is connected to an end of one bit when its bit is not. -/
theorem drivesNothing_eq {endIndex : Nat}
    (has : placement.part.HasEnd placement.netlist endIndex 1)
    : placement.drivesNothing endIndex = (placement.part.firstPoint? endIndex).isNone := by
  obtain ⟨direction, resolved, found, attached⟩ := has
  obtain ⟨point, single⟩ := List.length_eq_one_iff.mp attached.width_eq
  simp only [drivesNothing, isUnconnected_eq found, Part.firstPoint?, found, Option.bind_some,
    ResolvedEnd.isUnconnected, single]
  cases point <;> rfl

/-- The actual of an output port that is bound to ends drives the point of each bit. -/
theorem outputActual_drivesBits {port : Port} (fits : port.Fits placement) {actual : Actual}
    (made : Succeeds (placement.outputActual port) notes actual notes')
    {points : List (Option Point)} (bound : placement.part.boundPoints? port.source = some points)
    : points.length = port.width
      ∧ ∃ wires, notes.Adds wires notes' ∧ placement.DrivesBits points actual wires := by
  unfold Port.Fits at fits
  simp only [outputActual] at made
  cases source : port.source <;> simp only [source] at fits made bound
  case whole endIndex =>
    obtain ⟨direction, resolved, found, attached⟩ := fits
    obtain rfl : resolved.points = points := by simpa [Part.boundPoints?, found] using bound
    exact ⟨attached.width_eq, outputEnd_drivesBits found attached.rooted made⟩
  case bitwise ends =>
    obtain ⟨several, length, has⟩ := fits
    obtain rfl := Option.some.inj bound
    refine ⟨by simpa using length, ?_⟩
    have nothing
        : ends.all placement.drivesNothing
          = (ends.map placement.part.firstPoint?).all Option.isNone := by
      rw [List.all_map, Bool.eq_iff_iff, List.all_eq_true, List.all_eq_true]
      refine forall₂_congr fun endIndex member => ?_
      rw [drivesNothing_eq (has endIndex member), Function.comp_apply]
    rw [nothing] at made
    split at made
    · next none =>
        obtain ⟨rfl, rfl⟩ := succeeds_pure.1 made
        exact
          ⟨[], Notes.adds_nil rfl, fun _ => ⟨rfl, rfl⟩,
            fun some => Bool.noConfusion (none.symm.trans some)⟩
    · next some =>
        simp only [succeeds_bind, succeeds_pure] at made
        obtain ⟨bits, _, made, rfl, rfl⟩ := made
        obtain ⟨wires, places, adds, stands, fills⟩ :=
          mapM_fills placement.part.firstPoint?
            (fun endIndex member _ _ _ step => by
              obtain ⟨_, _, taken, step⟩ := succeeds_bind.1 step
              obtain ⟨same, rfl⟩ := succeeds_ofExcept.1 taken
              obtain rfl := Except.ok.inj ((bit?_first (has endIndex member)).1.symm.trans same)
              exact step)
            (fun endIndex member => (bit?_first (has endIndex member)).2) made
        exact
          ⟨wires, adds, fun none => absurd none some, fun _ => ⟨places, fills, stands⟩⟩
  all_goals cases bound

-----------------------------------------------------------------------------------------
-- Instances
-----------------------------------------------------------------------------------------

theorem inputPort_receives {port : Port} (fits : port.Fits placement) {map : PortMap}
    (made
      : Succeeds (do return PortMap.mk port.name (← placement.inputActual port)) notes map notes')
    : port.Receives placement map := by
  obtain ⟨actual, formed, rfl⟩ := bindPort_succeeds.1 made
  refine ⟨rfl, fun points bound => ?_⟩
  obtain ⟨width, levels⟩ := inputActual_levels fits formed bound
  refine ⟨width, fun value dialect => ?_⟩
  exact Hdl.associations_bits (Expr.eval_concat _) (levels value) dialect

theorem drivingPort_drives {port : Port} (fits : port.Fits placement) {map : PortMap}
    (made
      : Succeeds (do return PortMap.mk port.name (← placement.outputActual port)) notes map notes')
    : ∃ wires, notes.Adds wires notes' ∧ port.Drives placement map wires := by
  obtain ⟨actual, formed, rfl⟩ := bindPort_succeeds.1 made
  cases bound : placement.part.boundPoints? port.source with
  | none =>
      obtain ⟨wires, adds⟩ := outputActual_le Notes.order_adds Notes.exists_adds_withOpenWire formed
      refine ⟨wires, adds, rfl, fun points some => ?_⟩
      cases bound.symm.trans some
  | some points =>
      obtain ⟨width, wires, adds, nothing, drives⟩ := outputActual_drivesBits fits formed bound
      refine ⟨wires, adds, rfl, fun same equal => ?_⟩
      obtain rfl := Option.some.inj (bound.symm.trans equal)
      refine ⟨width, nothing, fun connected => ?_⟩
      obtain ⟨places, fills, stands⟩ := drives connected
      exact ⟨places, fills, Hdl.associations_bits (Expr.places_concat _) stands⟩

/-- The ports of an instance are connected in the order of the form, and so are the dangling wires
taken.
-/
theorem instantiate_ports {form : Form} (fits : form.Fits placement) {inst : Instance}
    (made : Succeeds (placement.instantiate form) notes inst notes')
    : ∃ inputs driven,
        inst.ports = inputs ++ driven.map Prod.fst
        ∧ List.Forall₂ (Port.Receives placement) form.inputs inputs
        ∧ List.Forall₂ (fun port pair => Port.Drives placement port pair.1 pair.2)
            form.drivingPorts driven
        ∧ notes.Adds (driven.flatMap Prod.snd) notes' := by
  obtain ⟨inputs, maps, middle, first, second, rfl⟩ := instantiate_succeeds.1 made
  have kept : middle.openWires = notes.openWires := by
    refine mapM_le Notes.order_openWires (fun port notes map notes' step => ?_) first
    obtain ⟨_, step, -⟩ := bindPort_succeeds.1 step
    exact inputActual_le Notes.order_openWires step
  have received : List.Forall₂ (Port.Receives placement) form.inputs inputs :=
    (mapM_succeeds.1 first).forall₂ fun port _ map _ member step =>
      inputPort_receives (fits port (List.mem_append_left _ member)) step
  obtain ⟨driven, rfl, adds, drives⟩ :=
    Notes.Adds.threaded (mapM_succeeds.1 second) fun port member _ _ _ step =>
      drivingPort_drives (fits port (List.mem_append_right _ member)) step
  exact ⟨inputs, driven, rfl, received, drives, (Notes.adds_nil kept).append adds⟩

/-- What is written for the ports of an instance are their associations. -/
theorem instantiate_associations {form : Form} (fits : form.Fits placement) (sized : form.Sized)
    (listed : placement.netlist.ClocksListed) {inst : Instance}
    (made : Succeeds (placement.instantiate form) notes inst notes') (dialect : Dialect)
    : Hdl.instanceAssociations dialect inst
      = .ok
          ((inst.ports.flatMap (fun map => map.associations dialect)).map
            (Association.text dialect)) := by
  have links := (instantiate_spec fits sized listed made).2.2 ⟨[], []⟩
  refine Hdl.instanceAssociations_eq dialect fun map member => ?_
  obtain ⟨declared, -, meets⟩ := forall₂_mem_right links.ports member
  exact PortMap.isEmpty_eq_false meets.filled

/-- An instance connects the ports of a form: these are written as they are connected, and the
dangling wires that they need are new.
-/
structure Connects (placement : Placement) (form : Form) (notes : Notes) (inst : Instance)
    (notes' : Notes)
    : Prop where
  ports
    : ∃ inputs driven,
        inst.ports = inputs ++ driven.map Prod.fst
        ∧ List.Forall₂ (Port.Receives placement) form.inputs inputs
        ∧ List.Forall₂ (fun port pair => Port.Drives placement port pair.1 pair.2)
            form.drivingPorts driven
        ∧ notes'.openWires = notes.openWires ++ driven.flatMap Prod.snd
  distinct : notes'.openWires.Nodup
  fresh : ∀ wire ∈ notes'.openWires, ∀ net, wire ≠ placement.netlist.nets.nameAt net
  written
    : ∀ dialect,
        Hdl.instanceAssociations dialect inst
        = .ok
            ((inst.ports.flatMap (fun map => map.associations dialect)).map
              (Association.text dialect))

theorem instantiate_connects {form : Form} (fits : form.Fits placement) (sized : form.Sized)
    (listed : placement.netlist.ClocksListed) (placed : notes.Placed) {inst : Instance}
    (made : Succeeds (placement.instantiate form) notes inst notes')
    : placement.Connects form notes inst notes' := by
  obtain ⟨inputs, driven, ports, received, drives, adds⟩ := instantiate_ports fits made
  have numbered := (placed.instantiated made).numbered
  refine
    ⟨⟨inputs, driven, ports, received, drives, adds.openWires_eq⟩, numbered.nodup,
      fun wire taken net => ?_, instantiate_associations fits sized listed made⟩
  rw [numbered] at taken
  obtain ⟨number, -, rfl⟩ := List.mem_map.mp taken
  exact openWireName_ne_nameAt number placement.netlist net

end Placement

namespace Hierarchy

variable {library : Library} {top : CircuitRef} {hierarchy : Hierarchy}

/-- Every component of an analyzed design that is not inlined becomes an instance, wherever and for
whichever clocks its circuit is emitted and whatever has been placed before, and the bits of its
ports are connected to those of its ends, whichever form their actuals have.
-/
theorem analyze_connects [Machine] (built : library.Built) (h : analyze library top = .ok hierarchy)
    {netlist : Netlist} (member : netlist ∈ hierarchy.netlists) {part : Part}
    (held : part ∈ netlist.parts) {mode : ClockMode} {dialect : Dialect}
    {realization : Realization}
    (resolved : Realization.resolve hierarchy mode dialect part.component = .ok realization)
    (notInlined : realization.isInlined = false) (label : String) {notes : Notes}
    (placed : notes.Placed)
    : ∃ inst notes',
        Succeeds (Placement.instantiate ⟨netlist, part, label, mode⟩ realization.form) notes inst
          notes'
        ∧ Placement.Connects ⟨netlist, part, label, mode⟩ realization.form notes inst notes' := by
  have sound := sound_of_analyze built.wellFormed h
  obtain ⟨holds, supported⟩ := sound.part member held
  let placement : Placement := ⟨netlist, part, label, mode⟩
  have resolves : Realization.Resolves hierarchy placement.mode dialect _ realization :=
    Realization.resolve_resolves resolved
  have total : Total (placement.instantiate realization.form) :=
    @Realization.Resolves.total_instantiate hierarchy library placement dialect _ resolves holds
      sound supported notInlined
  obtain ⟨fits, sized⟩ := resolves.fits sound placement holds supported notInlined
  obtain ⟨inst, notes', made⟩ := total notes
  exact
    ⟨inst, notes', made,
      Placement.instantiate_connects fits sized (sound.netlists _ member).clocks placed made⟩

/-- A multiplexer with an input of which one bit is open and the others are swapped, an input that
is a slice, and an output of which one bit is open.
-/
def multiplexerSteps : List BuildStep :=
  [
    .circuit "Main",
    .wire 0 4,
    .wire 0 3,
    .wire 0 1,
    .primitive 0 .multiplexer (.ofList [("width", .number 3)]),
    .connectBits 0 0 0 [some (⟨0, 0⟩, 3), some (⟨0, 0⟩, 1), none],
    .connectBits 0 0 1 [some (⟨0, 0⟩, 1), some (⟨0, 0⟩, 2), some (⟨0, 0⟩, 3)],
    .connect 0 0 2 ⟨0, 2⟩,
    .connectBits 0 0 3 [some (⟨0, 1⟩, 2), none, some (⟨0, 1⟩, 0)]
  ]

theorem multiplexer_connects
    : ∃ library hierarchy netlist part realization,
        library.Built
        ∧ analyze library ⟨0, 0, "Main"⟩ = .ok hierarchy
        ∧ netlist ∈ hierarchy.netlists
        ∧ part ∈ netlist.parts
        ∧ part.ends
          = [⟨.input, [some ⟨0, 3⟩, some ⟨0, 1⟩, none]⟩,
              ⟨.input, [some ⟨0, 1⟩, some ⟨0, 2⟩, some ⟨0, 3⟩]⟩, ⟨.input, [some ⟨2, 0⟩]⟩,
              ⟨.output, [some ⟨1, 2⟩, none, some ⟨1, 0⟩]⟩]
        ∧ Realization.resolve hierarchy .derived .vhdl part.component = .ok realization
        ∧ realization.isInlined = false
        ∧ Notes.empty.Placed
        ∧ ∃ inst notes',
            Succeeds (Placement.instantiate ⟨netlist, part, "", .derived⟩ realization.form) .empty
              inst notes'
            ∧ Placement.Connects ⟨netlist, part, "", .derived⟩ realization.form .empty inst
                notes' := by
  have evaluated
      : (analyzeBuilt? multiplexerSteps ⟨0, 0, "Main"⟩).map (fun result =>
            result.2.netlists.any (fun netlist =>
              netlist.parts.any (fun part =>
                part.component.kind == .primitive .multiplexer
                && part.ends
                  == [⟨.input, [some ⟨0, 3⟩, some ⟨0, 1⟩, none]⟩,
                    ⟨.input, [some ⟨0, 1⟩, some ⟨0, 2⟩, some ⟨0, 3⟩]⟩, ⟨.input, [some ⟨2, 0⟩]⟩,
                    ⟨.output, [some ⟨1, 2⟩, none, some ⟨1, 0⟩]⟩])))
        = some true := by
    decide +kernel
  obtain ⟨⟨library, hierarchy⟩, found, facts⟩ := Option.map_eq_some_iff.mp evaluated
  obtain ⟨built, analyzed⟩ := built_of_analyzeBuilt? found
  simp only [List.any_eq_true, Bool.and_eq_true, beq_iff_eq] at facts
  obtain ⟨netlist, member, part, held, kind, ends⟩ := facts
  have resolved
      : Realization.resolve hierarchy .derived .vhdl part.component
        = .ok (Realization.ofPrimitive .multiplexer part.component.attributes) := by
    rw [Realization.resolve, kind]
    rfl
  exact
    ⟨library, hierarchy, netlist, part, _, built, analyzed, member, held, ends, resolved, rfl,
      .empty, analyze_connects built analyzed member held resolved rfl "" .empty⟩

end Hierarchy

end SchematicHdl
