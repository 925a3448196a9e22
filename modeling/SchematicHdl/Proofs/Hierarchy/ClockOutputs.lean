import SchematicHdl.Proofs.Hierarchy.Inheritance
import SchematicHdl.Realization.Placement

/-! Clock trees that leave a circuit through its output pins. A point carries a tree because a
driver puts the tree there: a clock source, an instance whose circuit releases the tree, or an input
pin that inherited it. Where no point has more than one driver, the tree of a point is that of its
driver, so a tree that arises in a circuit or below it is found again at every instance. A tree that
only passes through, in by one pin and out by another on the same point, is not released.
-/

namespace SchematicHdl

open Net (Point Endpoint)
open Netlist (ofCircuit? positions Holds Lands endTrees outputClock? sourcePoints)
open Outcome

-----------------------------------------------------------------------------------------
-- Trees of one circuit
-----------------------------------------------------------------------------------------

/-- An end of a part is connected to a point. -/
def Part.Touches (part : Part) (endIndex : Nat) (point : Point) : Prop :=
  ∃ resolved, part.end? endIndex = some resolved ∧ some point ∈ resolved.points

theorem Part.exists_touches {part : Part} {point : Point}
    : (∃ endIndex, part.Touches endIndex point)
      ↔ ∃ resolved ∈ part.ends, some point ∈ resolved.points := by
  simp only [Touches, end?, List.mem_iff_getElem?]
  constructor
  · rintro ⟨endIndex, resolved, found, touched⟩
    exact ⟨resolved, ⟨endIndex, found⟩, touched⟩
  · rintro ⟨resolved, ⟨endIndex, found⟩, touched⟩
    exact ⟨endIndex, resolved, found, touched⟩

/-- An end of a part drives a point. -/
def Part.DrivesAt (part : Part) (endIndex : Nat) (point : Point) : Prop :=
  ∃ resolved,
    part.end? endIndex = some resolved
    ∧ resolved.direction.drives = true
    ∧ some point ∈ resolved.points

theorem Part.DrivesAt.touches {part : Part} {endIndex : Nat} {point : Point}
    (drives : part.DrivesAt endIndex point)
    : part.Touches endIndex point := by
  obtain ⟨resolved, atEnd, -, connected⟩ := drives
  exact ⟨resolved, atEnd, connected⟩

/-- A circuit lets a point in through one of its input pins. -/
def Netlist.EntersAt (netlist : Netlist) (point : Point) : Prop :=
  ∃ pin ∈ netlist.pins, pin.category = .pin .input ∧ pin.Touches 0 point

namespace Netlist

/-- The points that a tree is put on while a circuit is analyzed. -/
theorem mem_sourcePoints {children : List Netlist} {parts : List Part} {point : Point} {tree : Nat}
    : (point, tree) ∈ sourcePoints children parts
      ↔ ∃ part ∈ parts,
          ∃ endIndex,
            part.Touches endIndex point
            ∧ (endTrees children part)[endIndex]? = some (some tree) := by
  rw [sourcePoints, List.mem_reverse, List.mem_flatMap]
  refine exists_congr fun part => and_congr_right fun _ => ?_
  simp only [treePoints, List.mem_flatMap, Prod.exists]
  constructor
  · rintro ⟨resolved, tree?, paired, entry⟩
    cases tree? with
    | none => cases entry
    | some found =>
        obtain ⟨_, touched, same⟩ := List.mem_map.mp entry
        obtain ⟨rfl, rfl⟩ := Prod.mk.inj same
        obtain ⟨endIndex, atEnd⟩ := List.getElem?_of_mem paired
        obtain ⟨here, there⟩ := List.getElem?_zip_eq_some.mp atEnd
        exact ⟨endIndex, ⟨resolved, here, by simpa [ResolvedEnd.connectedPoints] using touched⟩,
          there⟩
  · rintro ⟨endIndex, ⟨resolved, here, touched⟩, there⟩
    refine ⟨resolved, some tree, ?_, ?_⟩
    · exact List.mem_of_getElem? (List.getElem?_zip_eq_some.mpr ⟨here, there⟩)
    · exact List.mem_map.mpr ⟨point, by simpa [ResolvedEnd.connectedPoints] using touched, rfl⟩

/-- The ends of an instance have the directions of the pins, one by one, by induction on the parts.
-/
theorem Sound.pin_directions {library : Library} {netlists : List Netlist} {netlist : Netlist}
    (sound : netlist.Sound library netlists)
    : List.Forall₂ (fun shape pin => pin.category = .pin (EndShape.direction shape))
        netlist.circuit.instanceEnds netlist.pins := by
  rw [Circuit.instanceEnds, ← sound.components_eq, pins]
  generalize netlist.parts = parts
  induction parts with
  | nil => exact .nil
  | cons part rest ih =>
      cases kind : part.component.kind with
      | pin direction =>
          rw [List.map_cons, List.filterMap_cons, List.filter_cons, if_pos (isPin_of_kind kind)]
          simp only [kind]
          exact .cons (by simp [Part.category, Component.category, kind]) ih
      | _ => simpa [Part.isPin, Component.isPin, kind] using ih

/-- An input pin drives every point that it touches. -/
theorem Sound.input_drives {library : Library} {netlists : List Netlist} {netlist : Netlist}
    (sound : netlist.Sound library netlists) {pin : Part} (boundary : pin ∈ netlist.pins)
    (input : pin.category = .pin .input) {endIndex : Nat} {point : Point}
    (touches : pin.Touches endIndex point)
    : pin.DrivesAt 0 point := by
  obtain ⟨component, -, holds⟩ :=
    forall₂_mem_right sound.parts (List.mem_filter.mp boundary).1
  obtain rfl := holds.component_eq
  have kind := kind_of_category input
  obtain ⟨resolved, ends, -⟩ := holds.pin _ kind
  obtain ⟨found, atEnd, connected⟩ := touches
  have attached := holds.ends
  rw [Library.ends, kind, ends] at attached
  cases attached with
  | cons attached =>
      have same : found = resolved := by
        simpa [Part.end?, ends] using List.mem_of_getElem? atEnd
      refine ⟨resolved, by simp [Part.end?, ends], ?_, same ▸ connected⟩
      rw [attached.direction_eq]
      rfl

end Netlist

namespace Hierarchy

theorem endTrees_of_pin {children : List Netlist} {part : Part} {direction : Direction}
    (pin : part.category = .pin direction)
    : endTrees children part = [] := by
  simp [endTrees, Netlist.kind_of_category pin]

theorem mem_pointsAt {netlist : Netlist} {position : Nat} {point : Point}
    : point ∈ netlist.pointsAt position
      ↔ ∃ part, netlist.part? position = some part ∧ ∃ endIndex, part.Touches endIndex point := by
  unfold Netlist.pointsAt
  cases netlist.part? position <;> simp [ResolvedEnd.connectedPoints, Part.exists_touches]

/-- Of the clocks that are inherited one after the other, the last one on a point counts. -/
theorem foldl_inherit_clockPoints (clocks : List (Nat × Nat)) (netlist : Netlist) (point : Point)
    : (clocks.foldl (fun n clock => inherit n clock.1 clock.2) netlist).clockPoints point
      = ((clocks.reverse.find? fun clock => point ∈ netlist.pointsAt clock.1).map Prod.snd).or
          (netlist.clockPoints point) := by
  induction clocks generalizing netlist with
  | nil => rfl
  | cons clock rest ih =>
      have same (position : Nat)
          : (inherit netlist clock.1 clock.2).pointsAt position = netlist.pointsAt position :=
        rfl
      simp only [List.foldl_cons, ih, same, List.reverse_cons, List.find?_append,
        List.find?_singleton]
      by_cases here : point ∈ netlist.pointsAt clock.1 <;> simp [inherit, here]

/-- The tree of a settled point: the last one that came down to it, or else its own. -/
theorem settle_clockTreeOf? [Machine] (parents : List Netlist) (netlist : Netlist) (point : Point)
    : (settle parents netlist).clockTreeOf? point
      = (((Machine.arrange netlist.circuit.position
              (netlist.pins.filterMap (inherited? parents netlist))).reverse.find?
            fun clock => point ∈ netlist.pointsAt clock.1).map Prod.snd).or
          (netlist.clockTreeOf? point) :=
  foldl_inherit_clockPoints _ netlist point

variable {library : Library} {netlists : List Netlist} {registry : ClockRegistry}

/-- An end of an instance has the direction of the pin that it belongs to. -/
theorem Assembled.instance_direction [Arithmetic] (wellFormed : library.WellFormed)
    (assembled : Assembled library netlists registry) {before after : List Netlist}
    {raw child : Netlist} (split : netlists = before ++ raw :: after)
    (analyzed : child ∈ netlists) {part : Part} (held : part ∈ raw.parts)
    (instantiates : part.component.target? = some child.circuit.position) {endIndex : Nat}
    {resolved : ResolvedEnd} (atEnd : part.end? endIndex = some resolved) {pin : Part}
    (atPin : child.pins[endIndex]? = some pin) {direction : Direction}
    (category : pin.category = .pin direction)
    : resolved.direction = direction := by
  obtain ⟨component, -, holds⟩ :=
    forall₂_mem_right (assembled.sound wellFormed split).parts held
  obtain rfl := holds.component_eq
  obtain ⟨first, second, childSplit⟩ := List.append_of_mem analyzed
  have sound := assembled.sound wellFormed childSplit
  obtain ⟨target, kind, same⟩ := Component.target?_eq_some.mp instantiates
  obtain ⟨shape, atShape, attached⟩ := forall₂_getElem? holds.ends.flip atEnd
  have shapes : library.ends part.component = child.circuit.instanceEnds := by
    rw [sound.circuit_eq, Library.ends, kind, ← same]
  obtain ⟨other, there, sameDirection⟩ :=
    forall₂_getElem? sound.pin_directions (shapes ▸ atShape)
  obtain rfl := Option.some.inj (atPin.symm.trans there)
  rw [attached.direction_eq]
  simpa [category] using sameDirection.symm

/-- An end that a tree leaves a part through drives: it is that of a clock source, or that of an
instance for an output pin.
-/
theorem Assembled.drives_of_endTree [Arithmetic] (wellFormed : library.WellFormed)
    (assembled : Assembled library netlists registry) {before after : List Netlist}
    {raw : Netlist} (split : netlists = before ++ raw :: after) {part : Part}
    (held : part ∈ raw.parts) {endIndex tree : Nat} {resolved : ResolvedEnd}
    (atEnd : part.end? endIndex = some resolved)
    (leaves : (endTrees before part)[endIndex]? = some (some tree))
    : resolved.direction.drives = true := by
  obtain ⟨component, -, holds⟩ :=
    forall₂_mem_right (assembled.sound wellFormed split).parts held
  obtain rfl := holds.component_eq
  unfold endTrees at leaves
  split at leaves
  · next kind =>
      obtain ⟨shape, atShape, attached⟩ := forall₂_getElem? holds.ends.flip atEnd
      simp only [Library.ends, kind] at atShape
      obtain rfl := List.mem_singleton.mp (List.mem_of_getElem? atShape)
      rw [attached.direction_eq]
      rfl
  · next target kind =>
      obtain ⟨child, found, -⟩ := holds.subcircuit target kind
      rw [found, List.getElem?_map, Option.map_eq_some_iff] at leaves
      obtain ⟨pin, atPin, recorded⟩ := leaves
      obtain ⟨earlier, same⟩ := Netlist.ofCircuit?_mem found
      have analyzed : child ∈ netlists := split ▸ List.mem_append_left _ earlier
      obtain ⟨first, second, childSplit⟩ := List.append_of_mem analyzed
      obtain ⟨output, -⟩ :=
        (assembled.pinClock?_eq_some wellFormed childSplit (List.mem_of_getElem? atPin)).mp recorded
      have instantiates : part.component.target? = some child.circuit.position :=
        Component.target?_eq_some.mpr ⟨target, kind, same.symm⟩
      rw [assembled.instance_direction wellFormed split analyzed held instantiates atEnd atPin
        output]
      rfl
  · simp at leaves

-----------------------------------------------------------------------------------------
-- One driver for each point
-----------------------------------------------------------------------------------------

/-- No point has drivers at different ends. -/
def DrivenOnce (netlist : Netlist) : Prop :=
  ∀ part ∈ netlist.parts,
    ∀ other ∈ netlist.parts,
      ∀ endIndex otherEnd point,
        part.DrivesAt endIndex point
        → other.DrivesAt otherEnd point
        → part = other ∧ endIndex = otherEnd

theorem analyze_drivenOnce [Machine] (wellFormed : library.WellFormed) {top : CircuitRef}
    {hierarchy : Hierarchy} (h : analyze library top = .ok hierarchy) {netlist : Netlist}
    (member : netlist ∈ hierarchy.netlists) (single : netlist.nets.multiplyDriven = [])
    : DrivenOnce netlist := by
  intro part held other beside endIndex otherEnd point drives also
  have sound := sound_of_analyze wellFormed h
  have listed {part : Part} (held : part ∈ netlist.parts) {endIndex : Nat}
      (drives : part.DrivesAt endIndex point)
      : point.bit < netlist.nets.widthAt point.net
        ∧ ∃ bit,
            (⟨part.position, endIndex, bit, point.bit⟩ : Endpoint)
            ∈ netlist.nets.drivers point := by
    obtain ⟨resolved, atEnd, outward, connected⟩ := drives
    obtain ⟨bit, atBit⟩ := List.getElem?_of_mem connected
    obtain ⟨shape, -, attached⟩ := forall₂_getElem? (sound.part member held).1.ends.flip atEnd
    obtain ⟨net, found, -, inside⟩ := attached.rooted point connected
    refine ⟨by simpa [Net.Table.widthAt, found] using inside, bit, ?_⟩
    rw [Net.Table.mem_drivers, analyze_landed wellFormed h member]
    exact ⟨⟨part, held, resolved, atEnd, outward, atBit, rfl⟩, rfl⟩
  obtain ⟨inside, bit, first⟩ := listed held drives
  obtain ⟨-, otherBit, second⟩ := listed beside also
  have same := Net.Table.eq_of_drivers single inside first second
  simp only [Endpoint.mk.injEq] at same
  obtain ⟨samePlace, sameEnd, -⟩ := same
  refine ⟨?_, sameEnd⟩
  obtain ⟨i, here⟩ := List.getElem?_of_mem held
  obtain ⟨j, there⟩ := List.getElem?_of_mem beside
  have inOrder := sound.netlists netlist member
  rw [inOrder.position_eq wellFormed here, inOrder.position_eq wellFormed there] at samePlace
  exact Option.some.inj (here.symm.trans (samePlace ▸ there))

section Split

variable [Machine] {before after : List Netlist} {raw : Netlist} (wellFormed : library.WellFormed)
  (assembled : Assembled library netlists registry) (split : netlists = before ++ raw :: after)
include wellFormed assembled split

/-- While a circuit is analyzed, a tree is put on a point by an end that drives the point. -/
theorem raw_origin {point : Point} {tree : Nat}
    : (point, tree) ∈ sourcePoints before raw.parts
      ↔ ∃ part ∈ raw.parts,
          ∃ endIndex,
            part.DrivesAt endIndex point
            ∧ (endTrees before part)[endIndex]? = some (some tree) := by
  rw [Netlist.mem_sourcePoints]
  constructor
  · rintro ⟨part, held, endIndex, ⟨resolved, atEnd, connected⟩, leaves⟩
    have drives := assembled.drives_of_endTree wellFormed split held atEnd leaves
    exact ⟨part, held, endIndex, ⟨resolved, atEnd, drives, connected⟩, leaves⟩
  · rintro ⟨part, held, endIndex, drives, leaves⟩
    exact ⟨part, held, endIndex, drives.touches, leaves⟩

/-- The tree that a point has while its circuit is analyzed is the one that leaves its driver. -/
theorem raw_tree (once : DrivenOnce raw) {part : Part} (held : part ∈ raw.parts)
    {endIndex : Nat}
    {point : Point} (drives : part.DrivesAt endIndex point) {tree : Nat}
    : raw.clockTreeOf? point = some tree
      ↔ (endTrees before part)[endIndex]? = some (some tree) := by
  have put (tree : Nat)
      : (point, tree) ∈ sourcePoints before raw.parts
        ↔ (endTrees before part)[endIndex]? = some (some tree) := by
    rw [raw_origin wellFormed assembled split]
    constructor
    · rintro ⟨other, beside, otherEnd, also, leaves⟩
      obtain ⟨rfl, rfl⟩ := once _ held _ beside _ _ _ drives also
      exact leaves
    · exact fun leaves => ⟨part, held, endIndex, drives, leaves⟩
  obtain ⟨_, analyzed, same, ⟨stages⟩⟩ := assembled.stages wellFormed split
  rw [Netlist.clockTreeOf?, ← same, stages.clockPoints_eq, same, lookup_eq_some_iff_mem, put]
  intro tree other listed beside
  simpa using ((put tree).mp listed).symm.trans ((put other).mp beside)

/-- A clock comes down to a point through an input pin on the point. -/
theorem entering_pin {point : Point} {clock : Nat × Nat}
    (handed : clock ∈ raw.pins.filterMap (inherited? (sinkClocks after) raw))
    (touched : point ∈ raw.pointsAt clock.1)
    : ∃ pin ∈ raw.pins,
        inherited? (sinkClocks after) raw pin = some clock
        ∧ pin.category = .pin .input
        ∧ pin.DrivesAt 0 point := by
  have sound := assembled.sound wellFormed split
  obtain ⟨pin, boundary, inherited⟩ := List.mem_filterMap.mp handed
  obtain ⟨samePlace, input⟩ := input_of_inherited? inherited
  obtain ⟨found, there, _, touches⟩ := mem_pointsAt.mp touched
  obtain ⟨i, here⟩ := List.getElem?_of_mem (List.mem_filter.mp boundary).1
  rw [samePlace, Netlist.part?, sound.position_eq wellFormed here, here] at there
  obtain rfl := Option.some.inj there
  exact ⟨pin, boundary, inherited, input, sound.input_drives boundary input touches⟩

/-- The tree that a point has once the clocks have sunk is the one that its driver brings. -/
theorem settled_tree (once : DrivenOnce raw) {part : Part} (held : part ∈ raw.parts)
    {endIndex : Nat} {point : Point} (drives : part.DrivesAt endIndex point) {tree : Nat}
    : (settle (sinkClocks after) raw).clockTreeOf? point = some tree
      ↔ (endTrees before part)[endIndex]? = some (some tree)
        ∨ part.category = .pin .input
          ∧ (settle (sinkClocks after) raw).pinClock? part = some tree := by
  have sound := assembled.sound wellFormed split
  let clocks :=
    Machine.arrange raw.circuit.position (raw.pins.filterMap (inherited? (sinkClocks after) raw))
  rw [settle_clockTreeOf?]
  cases found : clocks.reverse.find? fun clock => point ∈ raw.pointsAt clock.1 with
  | some clock =>
      -- The last clock on the point comes through a pin, which can only be the driver.
      obtain ⟨pin, boundary, inherited, input, also⟩ :=
        entering_pin wellFormed assembled split
          (Machine.mem_arrange.mp (List.mem_reverse.mp (List.mem_of_find?_eq_some found)))
          (by simpa using List.find?_some found)
      obtain ⟨rfl, -⟩ := once _ held _ (List.mem_filter.mp boundary).1 _ _ _ drives also
      obtain ⟨samePlace, -⟩ := input_of_inherited? inherited
      rw [assembled.input_pinClock? wellFormed split boundary input, inherited,
        endTrees_of_pin input]
      simp [input, Prod.ext_iff, samePlace]
  | none =>
      rw [Option.map_none, Option.none_or, raw_tree wellFormed assembled split once held drives]
      refine (or_iff_left ?_).symm
      rintro ⟨input, clocked⟩
      have boundary : part ∈ raw.pins :=
        List.mem_filter.mpr ⟨held, Netlist.isPin_of_category input⟩
      rw [assembled.input_pinClock? wellFormed split boundary input] at clocked
      obtain ⟨i, here⟩ := List.getElem?_of_mem held
      have touched : point ∈ raw.pointsAt part.position :=
        mem_pointsAt.mpr
          ⟨part, by rw [Netlist.part?, sound.position_eq wellFormed here, here], _, drives.touches⟩
      have listed : (part.position, tree) ∈ clocks.reverse :=
        List.mem_reverse.mpr
          (Machine.mem_arrange.mpr (List.mem_filterMap.mpr ⟨part, boundary, clocked⟩))
      have absent := List.find?_eq_none.mp found _ listed
      exact absent (by simpa using touched)

end Split

-----------------------------------------------------------------------------------------
-- Out of a circuit
-----------------------------------------------------------------------------------------

variable {top : CircuitRef} {hierarchy : Hierarchy}

/-- An instance in a parent leads the point of a named output pin of its circuit, which has one bit,
to a point outside.
-/
structure LeadsOut (parent child : Netlist) (part : Part) (inside outside : Point) : Prop where
  placed : part ∈ parent.parts
  instantiates : part.component.target? = some child.circuit.position
  through
    : ∃ endIndex pin resolved,
        child.pins[endIndex]? = some pin
        ∧ pin.category = .pin .output
        ∧ pin.portName.isSome
        ∧ pin.end? 0 = some resolved
        ∧ resolved.points = [some inside]
        ∧ part.Touches endIndex outside

/-- What an instance puts on the points of an end for a named output pin of one bit is the tree that
the point inside had before the clocks sank.
-/
theorem endTree_iff [Arithmetic] (wellFormed : library.WellFormed)
    (assembled : Assembled library netlists registry) {before after first second : List Netlist}
    {raw child : Netlist} (split : netlists = before ++ raw :: after)
    (childSplit : netlists = first ++ child :: second) {part : Part} (held : part ∈ raw.parts)
    (instantiates : part.component.target? = some child.circuit.position) {endIndex : Nat}
    {pin : Part} (atPin : child.pins[endIndex]? = some pin)
    (output : pin.category = .pin .output) (named : pin.portName.isSome)
    {resolved : ResolvedEnd} (atEnd : pin.end? 0 = some resolved) {inside : Point}
    (single : resolved.points = [some inside]) {tree : Nat}
    : (endTrees before part)[endIndex]? = some (some tree)
      ↔ child.clockTreeOf? inside = some tree := by
  obtain ⟨component, -, holds⟩ :=
    forall₂_mem_right (assembled.sound wellFormed split).parts held
  obtain rfl := holds.component_eq
  obtain ⟨target, kind, same⟩ := Component.target?_eq_some.mp instantiates
  obtain ⟨found, there, -⟩ := holds.subcircuit target kind
  obtain ⟨earlier, foundPlace⟩ := Netlist.ofCircuit?_mem there
  obtain rfl : found = child := by
    refine List.inj_on_of_nodup_map (assembled.distinct wellFormed) ?_ ?_ (foundPlace.trans same)
    · exact split ▸ List.mem_append_left _ earlier
    · exact childSplit ▸ List.mem_append_right _ List.mem_cons_self
  have recorded :=
    @Assembled.pinClock?_eq_some _ _ _ _ wellFormed assembled _ _ _ childSplit _
      (List.mem_of_getElem? atPin) tree
  simp only [endTrees, kind, there, List.getElem?_map, atPin, Option.map_some, Option.some.injEq,
    recorded, output, named, atEnd, true_and]
  constructor
  · rintro ⟨_, point, rfl, alone, carries⟩
    obtain rfl : inside = point := by simpa [single] using alone
    exact carries
  · exact fun carries => ⟨resolved, inside, rfl, single, carries⟩

section Split

variable [Machine] {before after : List Netlist} {raw : Netlist} (wellFormed : library.WellFormed)
  (assembled : Assembled library netlists registry) (split : netlists = before ++ raw :: after)
include wellFormed assembled split

/-- A point outside has the tree that the point inside had before the clocks sank. -/
theorem outside_eq (once : DrivenOnce raw) {first second : List Netlist} {child : Netlist}
    (childSplit : netlists = first ++ child :: second) {part : Part} {inside outside : Point}
    (leads : LeadsOut raw child part inside outside)
    : (settle (sinkClocks after) raw).clockTreeOf? outside = child.clockTreeOf? inside := by
  obtain ⟨placed, instantiates, endIndex, pin, resolved, atPin, output, named, atEnd, single,
    outer, atOuter, connected⟩ := leads
  have analyzed : child ∈ netlists := childSplit ▸ List.mem_append_right _ List.mem_cons_self
  have direction :=
    assembled.instance_direction wellFormed split analyzed placed instantiates atOuter atPin output
  have drives : part.DrivesAt endIndex outside := ⟨outer, atOuter, direction ▸ rfl, connected⟩
  have notPin : part.category ≠ .pin .input := by
    obtain ⟨target, kind, -⟩ := Component.target?_eq_some.mp instantiates
    simp [Part.category, Component.category, kind]
  refine Option.ext fun tree => ?_
  rw [settled_tree wellFormed assembled split once placed drives,
    or_iff_left (fun inward => notPin inward.1),
    endTree_iff wellFormed assembled split childSplit placed instantiates atPin output named atEnd
      single]

/-- A point that is let in through an input pin has no tree before the clocks sink. -/
theorem raw_tree_of_entersAt (once : DrivenOnce raw) {point : Point}
    (enters : raw.EntersAt point)
    : raw.clockTreeOf? point = none := by
  obtain ⟨pin, boundary, input, touches⟩ := enters
  have drives := (assembled.sound wellFormed split).input_drives boundary input touches
  refine Option.eq_none_iff_forall_ne_some.mpr fun tree carries => ?_
  rw [raw_tree wellFormed assembled split once (List.mem_filter.mp boundary).1 drives,
    endTrees_of_pin input] at carries
  simp at carries

/-- A tree on a point that is not let in was there before the clocks sank. -/
theorem raw_tree_of_settled {point : Point} (closed : ¬ raw.EntersAt point) {tree : Nat}
    (carries : (settle (sinkClocks after) raw).clockTreeOf? point = some tree)
    : raw.clockTreeOf? point = some tree := by
  rw [settle_clockTreeOf?, Option.or_eq_some_iff] at carries
  rcases carries with handed | ⟨-, own⟩
  · obtain ⟨clock, found, -⟩ := Option.map_eq_some_iff.mp handed
    obtain ⟨pin, boundary, -, input, drives⟩ :=
      entering_pin wellFormed assembled split
        (Machine.mem_arrange.mp (List.mem_reverse.mp (List.mem_of_find?_eq_some found)))
        (by simpa using List.find?_some found)
    exact absurd ⟨pin, boundary, input, drives.touches⟩ closed
  · exact own

end Split

/-- A tree of a point inside is found outside, unless the point is let in through an input pin: then
there is no tree outside.
-/
theorem carried_outside [Machine] (wellFormed : library.WellFormed)
    (h : analyze library top = .ok hierarchy)
    (single : ∀ netlist ∈ hierarchy.netlists, netlist.nets.multiplyDriven = [])
    {parent child : Netlist} (listed : parent ∈ hierarchy.netlists)
    (member : child ∈ hierarchy.netlists) {part : Part} {inside outside : Point}
    (leads : LeadsOut parent child part inside outside) {tree : Nat}
    (carries : child.clockTreeOf? inside = some tree)
    : (¬ child.EntersAt inside → parent.clockTreeOf? outside = some tree)
      ∧ (child.EntersAt inside → parent.clockTreeOf? outside = none) := by
  have parentOnce := analyze_drivenOnce wellFormed h listed (single parent listed)
  have childOnce := analyze_drivenOnce wellFormed h member (single child member)
  obtain ⟨netlists, sunk, assembled, -⟩ := analyze_eq_ok wellFormed h
  obtain ⟨before, raw, after, split, rfl⟩ := mem_sinkClocks (sunk ▸ listed)
  obtain ⟨first, core, second, coreSplit, rfl⟩ := mem_sinkClocks (sunk ▸ member)
  have same := settle_sameBody (sinkClocks after) raw
  have coreSame := settle_sameBody (sinkClocks second) core
  rw [DrivenOnce, same.parts_eq] at parentOnce
  rw [DrivenOnce, coreSame.parts_eq] at childOnce
  have leadsRaw : LeadsOut raw core part inside outside :=
    ⟨same.parts_eq ▸ leads.placed, coreSame.circuit_eq ▸ leads.instantiates,
      coreSame.pins_eq ▸ leads.through⟩
  rw [Netlist.EntersAt, coreSame.pins_eq, ← Netlist.EntersAt,
    outside_eq wellFormed assembled split parentOnce coreSplit leadsRaw]
  exact
    ⟨fun closed => raw_tree_of_settled wellFormed assembled coreSplit closed carries,
      raw_tree_of_entersAt wellFormed assembled coreSplit childOnce⟩

theorem clockSource_eq_tree {placement : Placement} {endIndex tree : Nat} {resolved : ResolvedEnd}
    {point : Point} (atEnd : placement.part.end? endIndex = some resolved)
    (first : resolved.points.head? = some (some point))
    (carries : placement.netlist.clockTreeOf? point = some tree)
    : placement.clockSource endIndex = .ok (.tree tree) := by
  simp [Placement.clockSource, Placement.endAt, atEnd, first, carries, bind, Except.bind, pure,
    Except.pure]

/-- Clock trees leave the circuits of a design through their output pins. A tree on the point of a
pin is on the points outside too, and clocks whatever has a clock end there, as long as the point is
not let in through an input pin of the same circuit.
-/
structure ReleasesClocks (library : Library) (hierarchy : Hierarchy) (top : CircuitRef)
    : Prop where
  covers : hierarchy.Covers library top
  points
    : ∀ parent ∈ hierarchy.netlists,
        ∀ child ∈ hierarchy.netlists,
          ∀ part inside outside,
            LeadsOut parent child part inside outside
            → ∀ tree,
                child.clockTreeOf? inside = some tree
                → (¬ child.EntersAt inside → parent.clockTreeOf? outside = some tree)
                  ∧ (child.EntersAt inside → parent.clockTreeOf? outside = none)
  clockEnds
    : ∀ parent ∈ hierarchy.netlists,
        ∀ child ∈ hierarchy.netlists,
          ∀ part inside outside,
            LeadsOut parent child part inside outside
            → ¬ child.EntersAt inside
            → ∀ tree,
                child.clockTreeOf? inside = some tree
                → ∀ placement : Placement,
                    placement.netlist = parent
                    → ∀ endIndex resolved,
                        placement.part.end? endIndex = some resolved
                        → resolved.points.head? = some (some outside)
                        → placement.clockSource endIndex = .ok (.tree tree)

/-- Where no point has more than one driver, clock trees leave circuits through output pins. -/
theorem analyze_releasesClocks [Machine] (built : library.Built)
    (h : analyze library top = .ok hierarchy)
    (single : ∀ netlist ∈ hierarchy.netlists, netlist.nets.multiplyDriven = [])
    : hierarchy.ReleasesClocks library top := by
  have wellFormed := built.wellFormed
  refine
    {
      covers := analyze_covers wellFormed h,
      points := fun parent listed child member part inside outside leads tree carries =>
        carried_outside wellFormed h single listed member leads carries,
      clockEnds := ?_
    }
  rintro parent listed child member part inside outside leads closed tree carries placement rfl
    endIndex resolved atEnd first
  have outward := (carried_outside wellFormed h single listed member leads carries).1 closed
  exact clockSource_eq_tree atEnd first outward

/-- A circuit with a clock of its own, a circuit around it, and a register at the top that is
clocked from both circuits away.
-/
def shellSteps : List BuildStep :=
  [
    .circuit "Source",
    .wire 0 1,
    .clock 0 .empty,
    .connect 0 0 0 ⟨0, 0⟩,
    .pin 0 .output "q" 1,
    .connect 0 1 0 ⟨0, 0⟩,
    .circuit "Shell",
    .wire 1 1,
    .subcircuit 1 ⟨0, 0, "Source"⟩,
    .connect 1 0 0 ⟨1, 0⟩,
    .pin 1 .output "r" 1,
    .connect 1 1 0 ⟨1, 0⟩,
    .circuit "Main",
    .wire 2 1,
    .subcircuit 2 ⟨0, 1, "Shell"⟩,
    .connect 2 0 0 ⟨2, 0⟩,
    .primitive 2 .register (.ofList [("width", .number 4)]),
    .connect 2 1 2 ⟨2, 0⟩
  ]

/-- The clock leaves both circuits and reaches the register. -/
theorem shell_releasesClocks
    : ∃ library hierarchy,
        analyzeBuilt? shellSteps ⟨0, 2, "Main"⟩ = some (library, hierarchy)
        ∧ (∀ netlist ∈ hierarchy.netlists, netlist.nets.multiplyDriven = [])
        ∧ hierarchy.netlists.map (fun netlist => netlist.clockTreeOf? ⟨0, 0⟩)
          = [some 0, some 0, some 0]
        ∧ hierarchy.ReleasesClocks library ⟨0, 2, "Main"⟩ := by
  have evaluated
      : (analyzeBuilt? shellSteps ⟨0, 2, "Main"⟩).map (fun result =>
          (result.2.netlists.map (fun netlist => netlist.nets.multiplyDriven),
            result.2.netlists.map (fun netlist => netlist.clockTreeOf? ⟨0, 0⟩)))
        = some ([[], [], []], [some 0, some 0, some 0]) := by
    decide +kernel
  obtain ⟨⟨library, hierarchy⟩, found, facts⟩ := Option.map_eq_some_iff.mp evaluated
  obtain ⟨built, analyzed⟩ := built_of_analyzeBuilt? found
  obtain ⟨drivers, trees⟩ := Prod.mk.inj facts
  have single : ∀ netlist ∈ hierarchy.netlists, netlist.nets.multiplyDriven = [] := by
    intro netlist member
    have listed : netlist.nets.multiplyDriven ∈ [[], [], []] :=
      drivers ▸ List.mem_map_of_mem member
    simpa using listed
  exact ⟨library, hierarchy, found, single, trees, analyze_releasesClocks built analyzed single⟩

/-- A circuit that passes a clock on, in by one pin and out by another on the same wire. -/
def passThroughSteps : List BuildStep :=
  [
    .circuit "Pass",
    .wire 0 1,
    .pin 0 .input "ci" 1,
    .connect 0 0 0 ⟨0, 0⟩,
    .pin 0 .output "co" 1,
    .connect 0 1 0 ⟨0, 0⟩,
    .circuit "Main",
    .wire 1 1,
    .wire 1 1,
    .clock 1 .empty,
    .connect 1 0 0 ⟨1, 0⟩,
    .subcircuit 1 ⟨0, 0, "Pass"⟩,
    .connect 1 1 0 ⟨1, 0⟩,
    .connect 1 1 1 ⟨1, 1⟩,
    .primitive 1 .register (.ofList [("width", .number 1)]),
    .connect 1 2 2 ⟨1, 1⟩
  ]

/-- A tree that passes through a circuit is lost: it is on the point inside and not on the one
outside.
-/
theorem passThrough_not_released
    : ¬ ∀ (library : Library) (top : CircuitRef) (hierarchy : Hierarchy),
        library.Built
        → analyze library top = .ok hierarchy
        → (∀ netlist ∈ hierarchy.netlists, netlist.nets.multiplyDriven = [])
        → ∀ parent ∈ hierarchy.netlists,
            ∀ child ∈ hierarchy.netlists,
              ∀ part inside outside,
                LeadsOut parent child part inside outside
                → ∀ tree,
                    child.clockTreeOf? inside = some tree
                    → parent.clockTreeOf? outside = some tree := by
  intro released
  have evaluated
      : (analyzeBuilt? passThroughSteps ⟨0, 1, "Main"⟩).map (fun result =>
          result.2.netlists.all (fun netlist => netlist.nets.multiplyDriven.isEmpty)
          && result.2.netlists.any (fun parent =>
            result.2.netlists.any (fun child =>
              parent.parts.any (fun part =>
                part.component.target? == some child.circuit.position
                && child.pins[1]?.any (fun pin =>
                  pin.category == .pin .output
                  && pin.portName.isSome
                  && pin.end? 0 == some ⟨.input, [some ⟨0, 0⟩]⟩)
                && part.end? 1 == some ⟨.output, [some ⟨1, 0⟩]⟩
                && child.clockTreeOf? ⟨0, 0⟩ == some 0
                && parent.clockTreeOf? ⟨1, 0⟩ == none))))
        = some true := by
    decide +kernel
  obtain ⟨⟨library, hierarchy⟩, found, facts⟩ := Option.map_eq_some_iff.mp evaluated
  obtain ⟨built, analyzed⟩ := built_of_analyzeBuilt? found
  simp only [Bool.and_eq_true, List.all_eq_true, List.isEmpty_iff, List.any_eq_true,
    Option.any_eq_true, beq_iff_eq] at facts
  obtain ⟨single, parent, listed, child, member, part, placed,
    ⟨⟨⟨instantiates, pin, atPin, ⟨output, named⟩, inner⟩, outer⟩, carries⟩, lost⟩ := facts
  have leads : LeadsOut parent child part ⟨0, 0⟩ ⟨1, 0⟩ :=
    ⟨placed, instantiates, 1, pin, _, atPin, output, named, inner, rfl, _, outer,
      List.mem_cons_self⟩
  have carried :=
    released library _ hierarchy built analyzed single parent listed child member part _ _ leads 0
      carries
  rw [lost] at carried
  cases carried

end Hierarchy

end SchematicHdl
