import Mathlib.Data.List.Nodup
import SchematicHdl.Proofs.Hierarchy.Sound

/-! Inheritance of clock trees through input pins. A pin of a circuit below the top takes over a
tree just when every instance of the circuit feeds the pin from a point that carries the tree, where
all circuits that hold an instance have taken over their own trees already.
-/

namespace SchematicHdl

open Net (Point)
open Netlist (ofCircuit? positions)
open Outcome

-----------------------------------------------------------------------------------------
-- What the instances feed
-----------------------------------------------------------------------------------------

/-- A part takes a clock tree from one of its ends, which has one bit on a point of the tree. -/
def Netlist.Feeds (netlist : Netlist) (part : Part) (endIndex tree : Nat) : Prop :=
  ∃ resolved point,
    part.end? endIndex = some resolved
    ∧ resolved.points = [some point]
    ∧ netlist.clockTreeOf? point = some tree

theorem ResolvedEnd.singlePoint?_eq_some {resolved : ResolvedEnd} {point : Point}
    : resolved.singlePoint? = some point ↔ resolved.points = [some point] := by
  unfold singlePoint?
  split
  · next only => simp [only]
  · next other => simpa using other (some point)

/-- The clocks that are recorded while a circuit is analyzed are those on its named output pins of
one bit.
-/
theorem Netlist.mem_outputClocks {netlist : Netlist} {position tree : Nat}
    : (position, tree) ∈ netlist.parts.filterMap (outputClock? netlist.clockPoints)
      ↔ ∃ part ∈ netlist.parts,
          part.position = position
          ∧ part.category = .pin .output
          ∧ part.portName.isSome
          ∧ ∃ resolved point,
              part.end? 0 = some resolved
              ∧ resolved.points = [some point]
              ∧ netlist.clockTreeOf? point = some tree := by
  rw [List.mem_filterMap]
  refine exists_congr fun part => and_congr_right fun _ => ?_
  cases ends : part.ends with
  | nil => simp [outputClock?, ends, Part.end?]
  | cons resolved rest =>
      simp only [outputClock?, ends, Part.end?, List.getElem?_cons_zero,
        Option.ite_none_right_eq_some, Bool.and_eq_true, decide_eq_true_eq, Option.bind_eq_bind,
        Option.bind_eq_some_iff, Option.pure_def, Option.some.injEq, Prod.mk.injEq,
        ResolvedEnd.singlePoint?_eq_some, clockTreeOf?]
      constructor
      · rintro ⟨⟨output, named⟩, point, single, _, carries, rfl, rfl⟩
        exact ⟨rfl, output, named, resolved, point, rfl, single, carries⟩
      · rintro ⟨rfl, output, named, _, point, rfl, single, carries⟩
        exact ⟨⟨output, named⟩, point, single, tree, carries, rfl, rfl⟩

namespace Hierarchy

variable {library : Library} {netlists parents : List Netlist} {registry : ClockRegistry}

/-- Feeds agree on a tree when there are any and all of them come from it. -/
theorem agreed?_eq_some {feeds : List (Option Nat)} {tree : Nat}
    : agreed? feeds = some tree ↔ feeds ≠ [] ∧ ∀ feed ∈ feeds, feed = some tree := by
  constructor
  · intro agreed
    refine ⟨?_, eq_of_agreed? agreed⟩
    rintro rfl
    cases agreed
  · rintro ⟨fed, all⟩
    cases feeds with
    | nil => exact absurd rfl fed
    | cons first rest =>
        obtain ⟨rfl, others⟩ := List.forall_mem_cons.mp all
        simpa [agreed?] using others

theorem mem_feeds {parent : Netlist} {circuit pin : Nat} {pins : List Part} {feed : Option Nat}
    : feed ∈ feeds parent circuit pins pin
      ↔ ∃ part ∈ parent.parts,
          part.component.target? = some circuit
          ∧ ∃ endIndex resolved candidate,
              part.end? endIndex = some resolved
              ∧ pins[endIndex]? = some candidate
              ∧ candidate.position = pin
              ∧ feed = resolved.singlePoint?.bind parent.clockTreeOf? := by
  simp only [feeds, List.mem_flatMap]
  refine exists_congr fun part => and_congr_right fun _ => ?_
  cases kind : part.component.kind with
  | subcircuit target =>
      by_cases same : target.position = circuit
      · simp only [Component.target?, kind, same, if_true, List.mem_filterMap, Prod.exists,
          Option.ite_none_right_eq_some, Option.some.injEq, true_and]
        constructor
        · rintro ⟨resolved, candidate, paired, here, rfl⟩
          obtain ⟨endIndex, found⟩ := List.getElem?_of_mem paired
          obtain ⟨atEnd, atPin⟩ := List.getElem?_zip_eq_some.mp found
          exact ⟨endIndex, resolved, candidate, atEnd, atPin, here, rfl⟩
        · rintro ⟨endIndex, resolved, candidate, atEnd, atPin, here, rfl⟩
          exact ⟨resolved, candidate,
            List.mem_of_getElem? (List.getElem?_zip_eq_some.mpr ⟨atEnd, atPin⟩), here, rfl⟩
      · simp [Component.target?, kind, same]
  | _ => simp [Component.target?, kind]

/-- The tree that the instances of a circuit hand to one of its named input pins: the one that all
of them feed it from, where there are any.
-/
theorem inherited?_eq_some {netlist : Netlist} {pin : Part} {endIndex tree : Nat}
    (boundary : netlist.pins[endIndex]? = some pin) (input : pin.category = .pin .input)
    (named : pin.portName.isSome) (distinct : (netlist.pins.map Part.position).Nodup)
    (placed
      : ∃ parent ∈ parents,
          ∃ part ∈ parent.parts, part.component.target? = some netlist.circuit.position)
    (complete
      : ∀ parent ∈ parents,
          ∀ part ∈ parent.parts,
            part.component.target? = some netlist.circuit.position
            → part.ends.length = netlist.pins.length)
    : inherited? parents netlist pin = some (pin.position, tree)
      ↔ ∀ parent ∈ parents,
          ∀ part ∈ parent.parts,
            part.component.target? = some netlist.circuit.position
            → parent.Feeds part endIndex tree := by
  have inside := (List.getElem?_eq_some_iff.mp boundary).1
  -- The pin is told by its position, so the feeds are those of the end with its number.
  have sameEnd {other : Nat} {candidate : Part} (there : netlist.pins[other]? = some candidate)
      (same : candidate.position = pin.position)
      : other = endIndex := by
    have equal :=
      List.inj_on_of_nodup_map distinct (List.mem_of_getElem? there)
        (List.mem_of_getElem? boundary) same
    rw [equal, ← boundary] at there
    exact ((List.getElem?_inj inside (.of_map _ distinct)).mp there.symm).symm
  have fed {parent : Netlist} (member : parent ∈ parents) {part : Part}
      (held : part ∈ parent.parts)
      (instantiates : part.component.target? = some netlist.circuit.position)
      : ∃ resolved,
          part.end? endIndex = some resolved
          ∧ resolved.singlePoint?.bind parent.clockTreeOf?
            ∈ parents.flatMap (fun parent =>
                feeds parent netlist.circuit.position netlist.pins pin.position) := by
    have short := complete parent member part held instantiates ▸ inside
    have atEnd := List.getElem?_eq_getElem short
    exact ⟨_, atEnd, List.mem_flatMap.mpr ⟨parent, member, mem_feeds.mpr
      ⟨part, held, instantiates, endIndex, _, pin, atEnd, boundary, rfl, rfl⟩⟩⟩
  simp only [inherited?, input, named, decide_true, Bool.and_true, if_true,
    Option.map_eq_some_iff, Prod.mk.injEq, true_and, exists_eq_right, agreed?_eq_some]
  constructor
  · rintro ⟨-, all⟩ parent member part held instantiates
    obtain ⟨resolved, atEnd, listed⟩ := fed member held instantiates
    obtain ⟨point, single, carries⟩ := Option.bind_eq_some_iff.mp (all _ listed)
    exact ⟨resolved, point, atEnd, ResolvedEnd.singlePoint?_eq_some.mp single, carries⟩
  · intro all
    refine ⟨?_, fun feed listed => ?_⟩
    · obtain ⟨parent, member, part, held, instantiates⟩ := placed
      obtain ⟨_, -, listed⟩ := fed member held instantiates
      exact List.ne_nil_of_mem listed
    · obtain ⟨parent, member, listed⟩ := List.mem_flatMap.mp listed
      obtain ⟨part, held, instantiates, other, resolved, candidate, atEnd, there, same, rfl⟩ :=
        mem_feeds.mp listed
      obtain ⟨fromEnd, point, found, single, carries⟩ := all parent member part held instantiates
      obtain rfl := sameEnd there same
      obtain rfl := Option.some.inj (atEnd.symm.trans found)
      rw [ResolvedEnd.singlePoint?_eq_some.mpr single, Option.bind_some, carries]

-----------------------------------------------------------------------------------------
-- What is recorded
-----------------------------------------------------------------------------------------

/-- The stages in which the circuit of an assembled netlist was analyzed. -/
theorem Assembled.stages [Arithmetic] (wellFormed : library.WellFormed)
    (assembled : Assembled library netlists registry) {before after : List Netlist}
    {raw : Netlist} (split : netlists = before ++ raw :: after)
    : ∃ trees analyzed,
        analyzed.netlist = raw
        ∧ Nonempty (Netlist.Stages library raw.circuit before trees analyzed) := by
  obtain ⟨trees, analyzed, done, same, -⟩ := assembled.analyzed wellFormed split
  have circuit_eq := (assembled.sound wellFormed split).circuit_eq
  exact ⟨trees, analyzed, same, circuit_eq ▸ Netlist.analyze_stages done⟩

/-- The clock that a pin has from the analysis of its circuit alone: the one of its point, for named
output pins of one bit, and none for all other pins.
-/
theorem Assembled.pinClock?_eq_some [Arithmetic] (wellFormed : library.WellFormed)
    (assembled : Assembled library netlists registry) {before after : List Netlist}
    {raw : Netlist} (split : netlists = before ++ raw :: after) {pin : Part}
    (boundary : pin ∈ raw.pins) {tree : Nat}
    : raw.pinClock? pin = some tree
      ↔ pin.category = .pin .output
        ∧ pin.portName.isSome
        ∧ ∃ resolved point,
            pin.end? 0 = some resolved
            ∧ resolved.points = [some point]
            ∧ raw.clockTreeOf? point = some tree := by
  have distinct := (assembled.sound wellFormed split).pins_distinct wellFormed
  obtain ⟨_, analyzed, rfl, ⟨stages⟩⟩ := assembled.stages wellFormed split
  have recorded (tree : Nat)
      : (pin.position, tree)
          ∈ analyzed.netlist.parts.filterMap (Netlist.outputClock? analyzed.netlist.clockPoints)
        ↔ pin.category = .pin .output
          ∧ pin.portName.isSome
          ∧ ∃ resolved point,
              pin.end? 0 = some resolved
              ∧ resolved.points = [some point]
              ∧ analyzed.netlist.clockTreeOf? point = some tree := by
    rw [Netlist.mem_outputClocks]
    constructor
    · rintro ⟨part, held, samePlace, output, leaves⟩
      have outward : part ∈ analyzed.netlist.pins :=
        List.mem_filter.mpr ⟨held, Netlist.isPin_of_category output⟩
      obtain rfl := List.inj_on_of_nodup_map distinct outward boundary samePlace
      exact ⟨output, leaves⟩
    · exact fun leaves => ⟨pin, (List.mem_filter.mp boundary).1, rfl, leaves⟩
  rw [Netlist.pinClock?, stages.pinClocks_eq, lookup_eq_some_iff_mem, recorded]
  intro tree other listed beside
  obtain ⟨-, -, resolved, point, atEnd, single, carries⟩ := (recorded tree).mp listed
  obtain ⟨-, -, found, there, atFound, alone, carried⟩ := (recorded other).mp beside
  obtain rfl := Option.some.inj (atEnd.symm.trans atFound)
  obtain rfl : point = there := by simpa [single] using alone
  exact Option.some.inj (carries.symm.trans carried)

/-- Of the clocks that a pin inherits one after the other, the last one counts. -/
theorem foldl_inherit_pinClocks (clocks : List (Nat × Nat)) (netlist : Netlist) (pin : Nat)
    : (clocks.foldl (fun n clock => inherit n clock.1 clock.2) netlist).pinClocks pin
      = (clocks.reverse.lookup pin).or (netlist.pinClocks pin) := by
  induction clocks generalizing netlist with
  | nil => rfl
  | cons clock rest ih =>
      obtain ⟨other, tree⟩ := clock
      rw [List.foldl_cons, ih, List.reverse_cons, List.lookup_append, Option.or_assoc]
      congr 1
      by_cases same : pin = other
      · simp [inherit, same]
      · simp [inherit, List.lookup_cons, same, beq_false_of_ne same]

theorem input_of_inherited? {netlist : Netlist} {pin : Part} {clock : Nat × Nat}
    (inherited : inherited? parents netlist pin = some clock)
    : clock.1 = pin.position ∧ pin.category = .pin .input := by
  simp only [inherited?, Option.ite_none_right_eq_some, Option.map_eq_some_iff,
    Bool.and_eq_true, decide_eq_true_eq] at inherited
  obtain ⟨⟨input, -⟩, tree, -, rfl⟩ := inherited
  exact ⟨rfl, input⟩

/-- A pin with no clock of its own has the clock that it inherits. -/
theorem settle_pinClock?_eq_some [Machine] {netlist : Netlist} {pin : Part} {tree : Nat}
    (boundary : pin ∈ netlist.pins) (distinct : (netlist.pins.map Part.position).Nodup)
    (unclocked : netlist.pinClock? pin = none)
    : (settle parents netlist).pinClock? pin = some tree
      ↔ inherited? parents netlist pin = some (pin.position, tree) := by
  let clocks := netlist.pins.filterMap (inherited? parents netlist)
  have entries (tree : Nat)
      : (pin.position, tree) ∈ (Machine.arrange netlist.circuit.position clocks).reverse
        ↔ inherited? parents netlist pin = some (pin.position, tree) := by
    rw [List.mem_reverse, Machine.mem_arrange, List.mem_filterMap]
    constructor
    · rintro ⟨other, beside, inherited⟩
      have same := (input_of_inherited? inherited).1
      obtain rfl := List.inj_on_of_nodup_map distinct boundary beside same
      exact inherited
    · exact fun inherited => ⟨pin, boundary, inherited⟩
  have none : netlist.pinClocks pin.position = none := unclocked
  rw [Netlist.pinClock?, settle, foldl_inherit_pinClocks, none, Option.or_none,
    lookup_eq_some_iff_mem, entries]
  intro tree other listed beside
  simpa using ((entries tree).mp listed).symm.trans ((entries other).mp beside)

/-- Once the clocks have sunk, an input pin has the clock that it inherits, and no other. -/
theorem Assembled.input_pinClock? [Machine] (wellFormed : library.WellFormed)
    (assembled : Assembled library netlists registry) {before after : List Netlist}
    {raw : Netlist} (split : netlists = before ++ raw :: after) {pin : Part}
    (boundary : pin ∈ raw.pins) (input : pin.category = .pin .input) {tree : Nat}
    : (settle parents raw).pinClock? pin = some tree
      ↔ inherited? parents raw pin = some (pin.position, tree) := by
  have distinct := (assembled.sound wellFormed split).pins_distinct wellFormed
  have unclocked : raw.pinClock? pin = none := by
    refine Option.eq_none_iff_forall_ne_some.mpr fun tree recorded => ?_
    have output := ((assembled.pinClock?_eq_some wellFormed split boundary).mp recorded).1
    simp [input] at output
  exact settle_pinClock?_eq_some boundary distinct unclocked

-----------------------------------------------------------------------------------------
-- Where the instances are
-----------------------------------------------------------------------------------------

/-- The netlists that hold an instance of a circuit settle it: they come after its own. -/
theorem instances_after [Machine] (wellFormed : library.WellFormed)
    (assembled : Assembled library netlists registry)
    (first : ChildrenFirst library.below (positions netlists)) {before after : List Netlist}
    {raw : Netlist} (split : netlists = before ++ raw :: after) {parent : Netlist}
    (member : parent ∈ sinkClocks netlists) {part : Part} (held : part ∈ parent.parts)
    (instantiates : part.component.target? = some raw.circuit.position)
    : parent ∈ sinkClocks after := by
  obtain ⟨sooner, host, later, hostSplit, rfl⟩ := mem_sinkClocks member
  have same := settle_sameBody (sinkClocks later) host
  have sound := assembled.sound wellFormed hostSplit
  rw [same.parts_eq] at held
  have below : raw.circuit.position ∈ library.below host.circuit.position := by
    rw [Library.below, Circuit.targets, ← sound.circuit_eq, ← sound.components_eq]
    exact List.mem_filterMap.mpr ⟨_, List.mem_map_of_mem held, instantiates⟩
  have inOrder
      : positions netlists = positions sooner ++ host.circuit.position :: positions later := by
    rw [hostSplit, Netlist.positions_append]
    rfl
  have distinct := assembled.distinct wellFormed
  -- The circuit comes before its host, so the netlists behind the host are behind the circuit.
  obtain ⟨own, listed, sameCircuit⟩ := List.mem_map.mp (first _ _ _ inOrder below)
  obtain rfl : own = raw := by
    refine List.inj_on_of_nodup_map distinct ?_ ?_ sameCircuit
    · exact hostSplit ▸ List.mem_append_left _ listed
    · exact split ▸ List.mem_append_right _ List.mem_cons_self
  obtain ⟨front, middle, rfl⟩ := List.append_of_mem listed
  have once : netlists.Nodup := .of_map _ distinct
  have behind : after = middle ++ host :: later := by
    rw [List.append_assoc, List.cons_append] at hostSplit
    rw [hostSplit] at once split
    have alone := List.nodup_append.mp once
    have ahead : own ∉ front := fun listed => alone.2.2 _ listed _ List.mem_cons_self rfl
    have rear : own ∉ middle ++ host :: later := (List.nodup_cons.mp alone.2.1).1
    exact ((List.append_cons_inj_of_notMem ahead rear).mp split).2.2.symm
  rw [behind]
  exact (sinkClocks_suffix middle _).subset List.mem_cons_self

variable {top : CircuitRef} {hierarchy : Hierarchy}

/-- Every circuit below the top has an instance. -/
theorem exists_instance [Machine] (wellFormed : library.WellFormed)
    (h : analyze library top = .ok hierarchy) {netlist : Netlist}
    (member : netlist ∈ hierarchy.netlists) (below : netlist.circuit.position ≠ top.position)
    : ∃ parent ∈ hierarchy.netlists,
        ∃ part ∈ parent.parts, part.component.target? = some netlist.circuit.position := by
  have path := (analyze_visits wellFormed h).2.mem_iff_reachable.mp (List.mem_map_of_mem member)
  rcases Relation.ReflTransGen.cases_tail path with same | ⟨holder, above, step⟩
  · exact absurd same below
  · obtain ⟨parent, -, listed, components⟩ := reachable_netlist wellFormed h above
    obtain ⟨component, placed, instantiates⟩ := List.mem_filterMap.mp step
    rw [← components] at placed
    obtain ⟨part, held, rfl⟩ := List.mem_map.mp placed
    exact ⟨parent, listed, part, held, instantiates⟩

/-- An instance has an end for each pin of its circuit. -/
theorem Sound.instance_ends (sound : hierarchy.Sound library) {parent netlist : Netlist}
    (member : netlist ∈ hierarchy.netlists) (listed : parent ∈ hierarchy.netlists) {part : Part}
    (held : part ∈ parent.parts)
    (instantiates : part.component.target? = some netlist.circuit.position)
    : part.ends.length = netlist.pins.length := by
  obtain ⟨target, kind, same⟩ := Component.target?_eq_some.mp instantiates
  have child := sound.netlists netlist member
  rw [child.pins_length, child.circuit_eq, ← (sound.part listed held).1.ends.length_eq]
  simp [Library.ends, kind, same]

-----------------------------------------------------------------------------------------
-- The whole design
-----------------------------------------------------------------------------------------

/-- A named input pin below the top carries the tree that all instances of its circuit feed it
from.
-/
theorem pinClock?_eq_some_iff [Machine] (wellFormed : library.WellFormed)
    (h : analyze library top = .ok hierarchy) {netlist : Netlist}
    (member : netlist ∈ hierarchy.netlists) (below : netlist.circuit.position ≠ top.position)
    {endIndex : Nat} {pin : Part} (boundary : netlist.pins[endIndex]? = some pin)
    (input : pin.category = .pin .input) (named : pin.portName.isSome) {tree : Nat}
    : netlist.pinClock? pin = some tree
      ↔ ∀ parent ∈ hierarchy.netlists,
          ∀ part ∈ parent.parts,
            part.component.target? = some netlist.circuit.position
            → parent.Feeds part endIndex tree := by
  have sound := sound_of_analyze wellFormed h
  have distinct := (sound.netlists netlist member).pins_distinct wellFormed
  have placed := exists_instance wellFormed h member below
  have complete (parent : Netlist) (listed : parent ∈ hierarchy.netlists) (part : Part)
      (held : part ∈ parent.parts)
      (instantiates : part.component.target? = some netlist.circuit.position)
      : part.ends.length = netlist.pins.length :=
    sound.instance_ends member listed held instantiates
  obtain ⟨netlists, sunk, assembled, order⟩ := analyze_eq_ok wellFormed h
  obtain ⟨before, raw, after, split, settled⟩ := mem_sinkClocks (sunk ▸ member)
  have same := settle_sameBody (sinkClocks after) raw
  rw [← settled] at same
  have pins_eq := same.pins_eq
  have circuit_eq := same.circuit_eq
  -- The parents that settle the circuit are all that hold an instance of it.
  have parents (parent : Netlist) (later : parent ∈ sinkClocks after)
      : parent ∈ hierarchy.netlists := by
    rw [sunk, split]
    exact (sinkClocks_suffix before _).subset (List.mem_cons_of_mem _ later)
  have holders (parent : Netlist) (listed : parent ∈ hierarchy.netlists) (part : Part)
      (held : part ∈ parent.parts)
      (instantiates : part.component.target? = some raw.circuit.position)
      : parent ∈ sinkClocks after :=
    instances_after wellFormed assembled (order.childrenFirst (.nil _)) split (sunk ▸ listed) held
      instantiates
  rw [pins_eq] at boundary distinct
  simp only [circuit_eq, pins_eq] at placed complete ⊢
  have pinMember := List.mem_of_getElem? boundary
  rw [settled, assembled.input_pinClock? wellFormed split pinMember input,
    inherited?_eq_some boundary input named distinct]
  · exact
      ⟨fun all parent listed part held instantiates =>
          all parent (holders parent listed part held instantiates) part held instantiates,
        fun all parent later => all parent (parents parent later)⟩
  · obtain ⟨parent, listed, part, held, instantiates⟩ := placed
    exact ⟨parent, holders parent listed part held instantiates, part, held, instantiates⟩
  · exact fun parent later => complete parent (parents parent later)

/-- The input pins of an analyzed design inherit exactly the clock trees that all instances of
their circuits feed them from.
-/
structure InheritsClocks (library : Library) (hierarchy : Hierarchy) (top : CircuitRef)
    : Prop where
  covers : hierarchy.Covers library top
  pins
    : ∀ netlist ∈ hierarchy.netlists,
        netlist.circuit.position ≠ top.position
        → ∀ endIndex pin,
            netlist.pins[endIndex]? = some pin
            → pin.category = .pin .input
            → pin.portName.isSome
            → ∀ tree,
                netlist.pinClock? pin = some tree
                ↔ ∀ parent ∈ hierarchy.netlists,
                    ∀ part ∈ parent.parts,
                      part.component.target? = some netlist.circuit.position
                      → parent.Feeds part endIndex tree

/-- In every analyzed design the input pins below the top inherit clock trees exactly. -/
theorem analyze_inheritsClocks [Machine] (built : library.Built)
    (h : analyze library top = .ok hierarchy)
    : hierarchy.InheritsClocks library top := by
  have wellFormed := built.wellFormed
  exact
    {
      covers := analyze_covers wellFormed h,
      pins := fun netlist member below endIndex pin boundary input named tree =>
        pinClock?_eq_some_iff wellFormed h member below boundary input named
    }

/-- A leaf with two pins, an instance of it in a circuit of its own and another one at the top.
Both instances feed the first pin from one clock, and the second pin from two clocks.
-/
def sharedLeafSteps : List BuildStep :=
  [
    .circuit "Leaf",
    .wire 0 1,
    .wire 0 1,
    .pin 0 .input "c" 1,
    .connect 0 0 0 ⟨0, 0⟩,
    .pin 0 .input "d" 1,
    .connect 0 1 0 ⟨0, 1⟩,
    .circuit "Middle",
    .wire 1 1,
    .pin 1 .input "k" 1,
    .connect 1 0 0 ⟨1, 0⟩,
    .subcircuit 1 ⟨0, 0, "Leaf"⟩,
    .connect 1 1 0 ⟨1, 0⟩,
    .connect 1 1 1 ⟨1, 0⟩,
    .circuit "Main",
    .wire 2 1,
    .wire 2 1,
    .clock 2 (.ofList [("phase", .number 0)]),
    .connect 2 0 0 ⟨2, 0⟩,
    .clock 2 (.ofList [("high_ticks", .number 2)]),
    .connect 2 1 0 ⟨2, 1⟩,
    .subcircuit 2 ⟨0, 0, "Leaf"⟩,
    .connect 2 2 0 ⟨2, 0⟩,
    .connect 2 2 1 ⟨2, 1⟩,
    .subcircuit 2 ⟨0, 1, "Middle"⟩,
    .connect 2 3 0 ⟨2, 0⟩
  ]

/-- The first pin of the leaf inherits the tree, also through the circuit between, and the second
pin stays plain.
-/
theorem sharedLeaf_inheritsClocks
    : ∃ library hierarchy,
        analyzeBuilt? sharedLeafSteps ⟨0, 2, "Main"⟩ = some (library, hierarchy)
        ∧ hierarchy.netlists.map (fun netlist => netlist.pins.map netlist.pinClock?)
          = [[some 0, none], [some 0], []]
        ∧ hierarchy.InheritsClocks library ⟨0, 2, "Main"⟩ := by
  have recorded
      : (analyzeBuilt? sharedLeafSteps ⟨0, 2, "Main"⟩).map (fun result =>
          result.2.netlists.map (fun netlist => netlist.pins.map netlist.pinClock?))
        = some [[some 0, none], [some 0], []] := by
    decide +kernel
  obtain ⟨⟨library, hierarchy⟩, found, clocks⟩ := Option.map_eq_some_iff.mp recorded
  obtain ⟨built, analyzed⟩ := built_of_analyzeBuilt? found
  exact ⟨library, hierarchy, found, clocks, analyze_inheritsClocks built analyzed⟩

end Hierarchy

end SchematicHdl
