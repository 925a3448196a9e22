import SchematicHdl.Proofs.Hdl.Scope
import SchematicHdl.Proofs.Hierarchy.Sound
import SchematicHdl.Proofs.Net.Wiring
import SchematicHdl.Realization.Circuit
import SchematicHdl.Realization.Placement

/-! Expressions of a circuit's own architecture and their widths. The scope of the architecture has
the ports of the circuit, its root nets and any number of dangling wires; points, slices, ranges of
bubble busses and clocks are all used as they are declared there.
-/

namespace SchematicHdl.Netlist

open Hdl (Expr Scope)
open Net (Point)

/-- What the architecture of a circuit can use when it declares the given dangling wires. -/
def scope (netlist : Netlist) (mode : ClockMode) (openWires : List String) : Scope where
  names :=
    (netlist.form mode).ports.map (fun port => (port.name, port.width))
      ++ netlist.nets.rootNets.map (fun net =>
        (netlist.nets.nameAt net, netlist.nets.widthAt net))
      ++ openWires.map (fun name => (name, 1))
  generics := []

variable {netlist : Netlist} {mode : ClockMode} {openWires : List String}

theorem port_mem_scope {port : Port} (member : port ∈ (netlist.form mode).ports)
    : (port.name, port.width) ∈ (netlist.scope mode openWires).names :=
  List.mem_append_left _ (List.mem_append_left _ (List.mem_map_of_mem member))

theorem net_mem_scope (mode : ClockMode) (openWires : List String) {net : Nat}
    (root : net ∈ netlist.nets.rootNets)
    : (netlist.nets.nameAt net, netlist.nets.widthAt net)
      ∈ (netlist.scope mode openWires).names :=
  List.mem_append_left _ (List.mem_append_right _ (List.mem_map.mpr ⟨net, root, rfl⟩))

theorem openWire_mem_scope {name : String} (member : name ∈ openWires)
    : (name, 1) ∈ (netlist.scope mode openWires).names :=
  List.mem_append_right _ (List.mem_map.mpr ⟨name, member, rfl⟩)

theorem scope_mono {more : List String} (within : openWires ⊆ more)
    : (netlist.scope mode openWires).names ⊆ (netlist.scope mode more).names :=
  List.append_subset.mpr
    ⟨List.subset_append_left _ _,
      List.Subset.trans (List.map_subset _ within) (List.subset_append_right _ _)⟩

theorem widthAt_of_rooted {point : Point} (rooted : netlist.nets.Rooted point)
    : point.net ∈ netlist.nets.rootNets ∧ point.bit < netlist.nets.widthAt point.net := by
  obtain ⟨net, found, root, lower⟩ := rooted
  have inside := (List.getElem?_eq_some_iff.mp found).1
  refine ⟨List.mem_filter.mpr ⟨List.mem_range.mpr inside, ?_⟩, ?_⟩
  · rw [found]
    exact root
  · rw [Net.Table.widthAt, found]
    exact lower

/-- A bit of a root net is a signal or a bit of one. -/
theorem pointExpr_hasWidth {point : Point} (rooted : netlist.nets.Rooted point)
    : (netlist.pointExpr point).HasWidth (netlist.scope mode openWires) 1 := by
  obtain ⟨root, lower⟩ := widthAt_of_rooted rooted
  have declared := net_mem_scope mode openWires root
  simp only [pointExpr]
  split
  · next single => exact .ref (single ▸ declared)
  · exact .index declared (by omega) lower

/-- A range of a vector, or its only index. -/
theorem range_hasWidth {scope : Scope} {name : String} {low count width : Nat}
    (declared : (name, width) ∈ scope.names) (vector : 1 < width) (some : 0 < count)
    (inside : low + count ≤ width)
    : (Expr.range name (low + count - 1) low).HasWidth scope count := by
  simp only [Expr.range]
  split
  · obtain rfl : count = 1 := by omega
    exact .index declared vector (by omega)
  · have typed : (Expr.slice name (low + count - 1) low).HasWidth scope _ :=
      .slice declared vector (by omega) (by omega)
    have same : low + count - 1 - low + 1 = count := by omega
    rwa [same] at typed

/-- Consecutive bits of a root net are a signal, a bit of one, or a range of one. -/
theorem sliceExpr_hasWidth {first : Point} {width : Nat}
    (rooted : netlist.nets.RootedRange first width)
    : (netlist.sliceExpr first width).HasWidth (netlist.scope mode openWires) width := by
  obtain ⟨some, each⟩ := rooted
  obtain ⟨root, -⟩ := widthAt_of_rooted (each 0 some)
  obtain ⟨-, lower⟩ := widthAt_of_rooted (each (width - 1) (by omega))
  have declared := net_mem_scope mode openWires root
  simp only at declared lower
  simp only [sliceExpr]
  split
  · next whole =>
      simp only [Bool.and_eq_true, decide_eq_true_eq] at whole
      exact .ref (whole.2 ▸ declared)
  · next part =>
      simp only [Bool.and_eq_true, decide_eq_true_eq, not_and] at part
      exact range_hasWidth declared (by omega) some (by omega)

end SchematicHdl.Netlist

namespace SchematicHdl.Net

/-- Points that follow on are the demanded bits, one by one, by induction on the points. -/
theorem getElem?_of_followsOn {net bit : Nat} {points : List (Option Point)}
    (follows : followsOn net bit points = true) {i : Nat} (inside : i < points.length)
    : points[i]? = some (some ⟨net, bit + i⟩) := by
  induction points generalizing bit i with
  | nil => cases inside
  | cons point rest ih =>
      simp only [followsOn, Bool.and_eq_true, decide_eq_true_eq] at follows
      cases i with
      | zero => simp [follows.1]
      | succ i =>
          have later := ih follows.2 (Nat.lt_of_succ_lt_succ inside)
          rw [List.getElem?_cons_succ, later, Nat.add_right_comm, Nat.add_assoc]

/-- A continuous bus has the demanded bit at each place. -/
theorem getElem?_of_continuousBase? {points : List (Option Point)} {first : Point}
    (found : continuousBase? points = some first)
    : 0 < points.length
      ∧ ∀ i < points.length, points[i]? = some (some ⟨first.net, first.bit + i⟩) := by
  unfold continuousBase? at found
  split at found
  · next head rest =>
      split at found
      · next follows =>
          obtain rfl := Option.some.inj found
          refine ⟨Nat.succ_pos _, fun i inside => ?_⟩
          cases i with
          | zero => rfl
          | succ i =>
              have later := getElem?_of_followsOn follows (Nat.lt_of_succ_lt_succ inside)
              rw [List.getElem?_cons_succ, later, Nat.add_right_comm, Nat.add_assoc]
      · cases found
  · cases found

end SchematicHdl.Net

namespace SchematicHdl.Netlist

open Hdl (Expr Scope)
open Net (Point)

variable {netlist : Netlist} {mode : ClockMode} {openWires : List String}

/-- Every run of the wiring copies from bits of a root net into bits of a root net. -/
theorem Sound.wiring_rooted {library : Library} {netlists : List Netlist}
    (sound : netlist.Sound library netlists) {run : Net.Run} (member : run ∈ netlist.nets.wiring)
    : netlist.nets.RootedRange run.target run.width
      ∧ netlist.nets.RootedRange run.source run.width := by
  obtain ⟨draft, collected, frozen⟩ := sound.nets
  rw [← Net.Table.wiring_bare, frozen] at member
  have rooted := Net.Table.rooted_of_mem_wiring collected member
  simpa only [Net.Table.RootedRange, ← frozen, Net.Table.rooted_bare] using rooted

/-- The expression for a whole end has the width of the end. -/
theorem endExpr?_hasWidth {resolved : ResolvedEnd}
    (rooted : ∀ point, some point ∈ resolved.points → netlist.nets.Rooted point) {expr : Expr}
    (found : netlist.endExpr? resolved = some expr)
    : expr.HasWidth (netlist.scope mode openWires) resolved.width := by
  obtain ⟨first, based, rfl⟩ := Option.map_eq_some_iff.mp found
  obtain ⟨some, each⟩ := Net.getElem?_of_continuousBase? based
  exact sliceExpr_hasWidth
    ⟨some, fun i lower => rooted _ (List.mem_of_getElem? (each i lower))⟩

/-- A bubble bus that is not empty is a port. -/
theorem bubblePort_mem_scope (mode : ClockMode) (openWires : List String) {bus : Direction}
    (some : netlist.bubbles.get bus ≠ 0)
    : (bubblePort bus, netlist.bubbles.get bus) ∈ (netlist.scope mode openWires).names := by
  have listed : Port.plain (bubblePort bus) (netlist.bubbles.get bus) (.bubbles bus)
      ∈ netlist.bubblePorts bus := by
    simp [bubblePorts, some]
  have member : Port.plain (bubblePort bus) (netlist.bubbles.get bus) (.bubbles bus)
      ∈ (netlist.form mode).ports := by
    cases bus <;> simp [Form.ports, Form.drivingPorts, form, listed]
  exact port_mem_scope member

/-- The ranges of a part do not wrap around and stay on the bubble busses of the circuit. -/
def BubblesInside (netlist : Netlist) (part : Part) : Prop :=
  ∀ bus range,
    part.bubbles.get bus = some range
    → range.first ≤ range.last ∧ range.last < netlist.bubbles.get bus

/-- The bubble busses hold the ranges of all parts. -/
def BubblesHeld (netlist : Netlist) : Prop :=
  ∀ part ∈ netlist.parts, netlist.BubblesInside part

/-- A range on a bubble bus is used as the bus is declared. -/
theorem bubbleExpr_hasWidth {bus : Direction} {range : BubbleRange}
    (ordered : range.first ≤ range.last) (inside : range.last < netlist.bubbles.get bus)
    : (netlist.bubbleExpr bus range).HasWidth (netlist.scope mode openWires)
        (range.last - range.first + 1) := by
  have declared := bubblePort_mem_scope mode openWires
    (show netlist.bubbles.get bus ≠ 0 by omega)
  obtain ⟨first, last⟩ := range
  dsimp only at ordered inside
  obtain ⟨extra, rfl⟩ := Nat.exists_eq_add_of_le ordered
  simp only [bubbleExpr, Nat.add_sub_cancel_left]
  split
  · next single =>
      obtain rfl : extra = 0 := by omega
      exact .ref (by rwa [single] at declared)
  · have vector : 1 < netlist.bubbles.get bus := by omega
    exact range_hasWidth declared vector (Nat.succ_pos extra) inside

theorem clockTree_mem_scope (mode : ClockMode) (openWires : List String) {tree : Nat}
    (used : tree ∈ netlist.clockTrees)
    : (clockTreeName tree, clockTreeWidth) ∈ (netlist.scope mode openWires).names := by
  have member : sharedPort (clockTreeName tree) clockTreeWidth ∈ (netlist.form mode).ports := by
    simp only [Form.ports, form, List.mem_append, List.mem_map]
    exact .inl (.inl (.inl (.inl ⟨tree, used, rfl⟩)))
  exact port_mem_scope member

/-- With a global tick, the global clock is a port of every circuit that uses a clock tree. -/
theorem globalClock_mem_scope {tree : Nat} (used : tree ∈ netlist.clockTrees)
    : (globalClockName, 1) ∈ (netlist.scope .globalTick openWires).names := by
  have needed : netlist.needsGlobalClock .globalTick = true := by
    have some : netlist.clockTrees ≠ [] := List.ne_nil_of_mem used
    simp [needsGlobalClock, some]
  have member : sharedPort globalClockName 1 ∈ (netlist.form .globalTick).ports := by
    simp only [Form.ports, form, needed, if_true, List.mem_append]
    exact .inl (.inl (.inl (.inr List.mem_cons_self)))
  exact port_mem_scope member

/-- A clock source that is a tree of the circuit, or a net, or nothing. -/
def SourceKnown (netlist : Netlist) (mode : ClockMode) (openWires : List String)
    : ClockSource → Prop
  | .tree tree => tree ∈ netlist.clockTrees
  | .gated net => net.HasWidth (netlist.scope mode openWires) 1
  | .unconnected => True

/-- A clock and its tick are single bits. -/
theorem clockAndTick_hasWidth {source : ClockSource}
    (known : netlist.SourceKnown mode openWires source)
    : (Placement.clockAndTick mode source).1.HasWidth (netlist.scope mode openWires) 1
      ∧ (Placement.clockAndTick mode source).2.HasWidth (netlist.scope mode openWires) 1 := by
  have bit (value : Hdl.Bit)
      : (Expr.bit value).HasWidth (netlist.scope mode openWires) 1 :=
    .filled rfl
  cases source with
  | tree tree =>
      have declared := clockTree_mem_scope mode openWires known
      cases mode with
      | derived => exact ⟨.index declared (by decide) (by decide), bit .one⟩
      | globalTick =>
          exact ⟨.ref (globalClock_mem_scope known), .index declared (by decide) (by decide)⟩
  | gated net => exact ⟨known, bit .one⟩
  | unconnected => exact ⟨bit .zero, bit .zero⟩

/-- The port of a named pin is as wide as the end of the pin. -/
theorem pin_mem_scope {pin : Part} (boundary : pin ∈ netlist.pins) {direction : Direction}
    (category : pin.category = .pin direction) (notInout : direction ≠ .inout) {name : String}
    (named : pin.portName = some name)
    : (name, (pin.end? 0).elim 1 ResolvedEnd.width)
      ∈ (netlist.scope mode openWires).names := by
  obtain ⟨i, found⟩ := List.getElem?_of_mem boundary
  have listed : Port.plain name ((pin.end? 0).elim 1 ResolvedEnd.width) (.whole i)
      ∈ netlist.pinPorts direction := by
    refine List.mem_filterMap.mpr ⟨(pin, i), ?_, by simp [category, named]⟩
    exact List.mem_of_getElem? (by rw [List.getElem?_zipIdx, found]; simp)
  have member : Port.plain name ((pin.end? 0).elim 1 ResolvedEnd.width) (.whole i)
      ∈ (netlist.form mode).ports := by
    cases direction with
    | input => simp [Form.ports, form, listed]
    | output => simp [Form.ports, Form.drivingPorts, form, listed]
    | inout => exact absurd rfl notInout
  exact port_mem_scope member

end SchematicHdl.Netlist
