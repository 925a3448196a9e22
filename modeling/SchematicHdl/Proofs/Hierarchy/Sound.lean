import SchematicHdl.Proofs.Hierarchy.Visit
import SchematicHdl.Proofs.Netlist.Filing
import SchematicHdl.Proofs.Netlist.Packing

/-! What holds of all netlists of an analyzed design once the clocks have sunk. Sinking changes the
clocks of a netlist only, and hands a tree only to circuits whose parents use it; so whatever a
circuit uses of clock trees, the circuits that instantiate it use as well.
-/

namespace SchematicHdl

open Net (Point)
open Netlist (ofCircuit? positions ClocksListed Holds)
open Outcome

-----------------------------------------------------------------------------------------
-- Netlists by their circuits
-----------------------------------------------------------------------------------------

/-- A netlist is found by its circuit among netlists of different circuits. -/
theorem Netlist.ofCircuit?_of_mem {netlists : List Netlist} {netlist : Netlist}
    (distinct : (positions netlists).Nodup) (member : netlist ∈ netlists)
    : ofCircuit? netlists netlist.circuit.position = some netlist := by
  induction netlists with
  | nil => cases member
  | cons head rest ih =>
      simp only [positions, List.map_cons, List.nodup_cons] at distinct
      simp only [ofCircuit?, List.find?_cons]
      rcases List.mem_cons.mp member with rfl | later
      · simp
      · have differs : head.circuit.position ≠ netlist.circuit.position := by
          intro same
          exact distinct.1 (same ▸ List.mem_map_of_mem later)
        simpa [differs, ofCircuit?] using ih distinct.2 later

/-- Netlists of different circuits are told by their positions. -/
theorem Netlist.eq_of_positions {netlists others : List Netlist}
    (distinct : (positions netlists).Nodup) (within : others ⊆ netlists)
    (same : positions others = positions netlists)
    : others = netlists := by
  have read (chosen : List Netlist) (inside : chosen ⊆ netlists)
      : (positions chosen).map (ofCircuit? netlists) = chosen.map some := by
    rw [positions, List.map_map]
    exact List.map_congr_left fun netlist listed =>
      ofCircuit?_of_mem distinct (inside listed)
  have mapped := read others within
  rw [same, read netlists (List.Subset.refl _)] at mapped
  exact List.map_injective_iff.mpr (fun _ _ => Option.some.inj) mapped.symm

-----------------------------------------------------------------------------------------
-- Sinking changes nothing but clocks
-----------------------------------------------------------------------------------------

/-- Two versions of a netlist differ in their clocks only, and the later one uses more trees. -/
structure SameBody (before after : Netlist) : Prop where
  circuit_eq : after.circuit = before.circuit
  name_eq : after.name = before.name
  nets_eq : after.nets = before.nets
  parts_eq : after.parts = before.parts
  bubbles_eq : after.bubbles = before.bubbles
  clockTrees : before.clockTrees ⊆ after.clockTrees

theorem SameBody.refl (netlist : Netlist) : SameBody netlist netlist :=
  ⟨rfl, rfl, rfl, rfl, rfl, List.Subset.refl _⟩

theorem SameBody.trans {a b c : Netlist} (first : SameBody a b) (second : SameBody b c)
    : SameBody a c where
  circuit_eq := second.circuit_eq.trans first.circuit_eq
  name_eq := second.name_eq.trans first.name_eq
  nets_eq := second.nets_eq.trans first.nets_eq
  parts_eq := second.parts_eq.trans first.parts_eq
  bubbles_eq := second.bubbles_eq.trans first.bubbles_eq
  clockTrees := List.Subset.trans first.clockTrees second.clockTrees

theorem SameBody.pins_eq {before after : Netlist} (same : SameBody before after)
    : after.pins = before.pins := by
  rw [Netlist.pins, same.parts_eq, Netlist.pins]

namespace Hierarchy

theorem inherit_sameBody (netlist : Netlist) (pin tree : Nat)
    : SameBody netlist (inherit netlist pin tree) :=
  ⟨rfl, rfl, rfl, rfl, rfl, fun _ member => Netlist.mem_insertAscending.2 (.inr member)⟩

theorem inherit_clocksListed {netlist : Netlist} (listed : netlist.ClocksListed) (pin tree : Nat)
    : (inherit netlist pin tree).ClocksListed := by
  have kept := (inherit_sameBody netlist pin tree).clockTrees
  have new : tree ∈ (inherit netlist pin tree).clockTrees :=
    Netlist.mem_insertAscending.2 (.inl rfl)
  constructor
  · intro point carried carries
    simp only [inherit] at carries
    split at carries
    · exact Option.some.inj carries ▸ new
    · exact kept (listed.points point carried carries)
  · intro other carried carries
    simp only [inherit] at carries
    split at carries
    · exact Option.some.inj carries ▸ new
    · exact kept (listed.pins other carried carries)

/-- What inheriting clocks one after the other does, by induction on the clocks. -/
theorem foldl_inherit (clocks : List (Nat × Nat)) (netlist : Netlist)
    : SameBody netlist (clocks.foldl (fun n clock => inherit n clock.1 clock.2) netlist)
      ∧ (netlist.ClocksListed
        → (clocks.foldl (fun n clock => inherit n clock.1 clock.2) netlist).ClocksListed)
      ∧ ∀ tree ∈ (clocks.foldl (fun n clock => inherit n clock.1 clock.2) netlist).clockTrees,
          tree ∈ netlist.clockTrees ∨ ∃ clock ∈ clocks, clock.2 = tree := by
  induction clocks generalizing netlist with
  | nil => exact ⟨.refl _, id, fun _ => .inl⟩
  | cons clock rest ih =>
      obtain ⟨same, listed, trees⟩ := ih (inherit netlist clock.1 clock.2)
      refine ⟨(inherit_sameBody _ _ _).trans same,
        fun before => listed (inherit_clocksListed before _ _), fun tree member => ?_⟩
      rcases trees tree member with earlier | ⟨later, inRest, same⟩
      · rcases Netlist.mem_insertAscending.1 earlier with rfl | before
        · exact .inr ⟨clock, List.mem_cons_self, rfl⟩
        · exact .inl before
      · exact .inr ⟨later, List.mem_cons_of_mem _ inRest, same⟩

theorem settle_sameBody [Machine] (parents : List Netlist) (netlist : Netlist)
    : SameBody netlist (settle parents netlist) :=
  (foldl_inherit _ _).1

theorem settle_clocksListed [Machine] (parents : List Netlist) {netlist : Netlist}
    (listed : netlist.ClocksListed)
    : (settle parents netlist).ClocksListed :=
  (foldl_inherit _ _).2.1 listed

/-- A tree of a settled circuit is its own or inherited through one of its pins. -/
theorem mem_settle_clockTrees [Machine] {parents : List Netlist} {netlist : Netlist} {tree : Nat}
    (member : tree ∈ (settle parents netlist).clockTrees)
    : tree ∈ netlist.clockTrees
      ∨ ∃ pin ∈ netlist.pins, inherited? parents netlist pin = some (pin.position, tree) := by
  refine ((foldl_inherit _ _).2.2 tree member).imp_right fun ⟨clock, listed, same⟩ => ?_
  obtain ⟨pin, boundary, handed⟩ := List.mem_filterMap.mp (Machine.mem_arrange.1 listed)
  refine ⟨pin, boundary, ?_⟩
  simp only [inherited?] at handed ⊢
  split at handed
  · next takes =>
      rw [if_pos takes]
      obtain ⟨agreed, found, rfl⟩ := Option.map_eq_some_iff.mp handed
      simp [found, ← same]
  · cases handed

/-- Where a netlist of the sunk design comes from: a netlist that is settled by those behind it. -/
theorem mem_sinkClocks [Machine] {netlists : List Netlist} {netlist : Netlist}
    (member : netlist ∈ sinkClocks netlists)
    : ∃ before raw after,
        netlists = before ++ raw :: after ∧ netlist = settle (sinkClocks after) raw := by
  induction netlists with
  | nil => cases member
  | cons head rest ih =>
      rcases List.mem_cons.mp member with rfl | later
      · exact ⟨[], head, rest, rfl, rfl⟩
      · obtain ⟨before, raw, after, rfl, same⟩ := ih later
        exact ⟨head :: before, raw, after, rfl, same⟩

theorem sinkClocks_sameBody [Machine] (netlists : List Netlist)
    : List.Forall₂ SameBody netlists (sinkClocks netlists) := by
  induction netlists with
  | nil => exact .nil
  | cons netlist rest ih => exact .cons (settle_sameBody _ _) ih

theorem sinkClocks_positions [Machine] (netlists : List Netlist)
    : positions (sinkClocks netlists) = positions netlists := by
  induction netlists with
  | nil => rfl
  | cons netlist rest ih =>
      have same := (settle_sameBody (sinkClocks rest) netlist).circuit_eq
      simp only [positions, sinkClocks, List.map_cons] at ih ⊢
      rw [ih, same]

theorem sinkClocks_suffix [Machine] (before after : List Netlist)
    : sinkClocks after <:+ sinkClocks (before ++ after) := by
  induction before with
  | nil => exact List.suffix_refl _
  | cons netlist rest ih => exact ih.trans (List.suffix_cons _ _)

-----------------------------------------------------------------------------------------
-- Assembled netlists
-----------------------------------------------------------------------------------------

namespace Assembled

variable {library : Library} {netlists : List Netlist} {registry : ClockRegistry}

/-- Every netlist was analyzed with those before it. -/
theorem analyzed [Arithmetic] (wellFormed : library.WellFormed)
    (assembled : Assembled library netlists registry)
    {before after : List Netlist} {netlist : Netlist}
    (split : netlists = before ++ netlist :: after)
    : ∃ trees analyzed,
        Netlist.analyze library (library.circuitAt netlist.circuit.position) before trees
          = .ok analyzed
        ∧ analyzed.netlist = netlist
        ∧ netlist.circuit.position < library.circuits.length := by
  induction assembled generalizing after with
  | nil => simp at split
  | @snoc earlier trees position analyzed _ inside _ done ih =>
      rcases List.eq_nil_or_concat after with rfl | ⟨others, final, rfl⟩
      · obtain ⟨rfl, same⟩ := List.append_inj' split rfl
        obtain ⟨rfl, -⟩ := List.cons.inj same
        obtain ⟨stages⟩ := Netlist.analyze_stages done
        have here : analyzed.netlist.circuit.position = position := by
          rw [stages.circuit_eq]
          exact wellFormed.circuitAt_position _
        rw [here]
        exact ⟨trees, analyzed, done, rfl, inside⟩
      · rw [List.concat_eq_append, ← List.cons_append, ← List.append_assoc] at split
        obtain ⟨rfl, -⟩ := List.append_inj' split rfl
        exact ih rfl

theorem distinct [Arithmetic] (wellFormed : library.WellFormed)
    (assembled : Assembled library netlists registry)
    : (positions netlists).Nodup := by
  induction assembled with
  | nil => exact .nil
  | @snoc earlier trees position analyzed _ inside fresh done ih =>
      obtain ⟨stages⟩ := Netlist.analyze_stages done
      have here : analyzed.netlist.circuit.position = position := by
        rw [stages.circuit_eq]
        exact wellFormed.circuitAt_position _
      simp only [positions, List.map_append, List.map_cons, List.map_nil, here] at fresh ih ⊢
      exact List.nodup_append.mpr
        ⟨ih, List.pairwise_singleton _ _, fun a member b new same =>
          fresh (List.mem_singleton.mp new ▸ same ▸ member)⟩

theorem clocksListed [Arithmetic] (assembled : Assembled library netlists registry)
    : ∀ netlist ∈ netlists, netlist.ClocksListed := by
  induction assembled with
  | nil => simp
  | snoc _ _ _ done ih =>
      intro netlist member
      rcases List.mem_append.mp member with earlier | last
      · exact ih netlist earlier
      · obtain ⟨stages⟩ := Netlist.analyze_stages done
        exact List.mem_singleton.mp last ▸ stages.clocksListed ih

end Assembled

end Hierarchy

-----------------------------------------------------------------------------------------
-- Sound netlists
-----------------------------------------------------------------------------------------

/-- What holds of a netlist of an analyzed design: it is the netlist of a circuit of the library,
its nets come from a draft, it holds a part for each component, its bubbles are counted in words,
and it lists its clocks.
-/
structure Netlist.Sound (library : Library) (netlists : List Netlist) (netlist : Netlist)
    : Prop where
  inside : netlist.circuit.position < library.circuits.length
  circuit_eq : netlist.circuit = library.circuitAt netlist.circuit.position
  name_eq : netlist.name = Identifier.ofLabel netlist.circuit.name netlist.circuit.position
  nets
    : ∃ draft : Net.Draft,
        draft.Collected netlist.circuit.wires netlist.circuit.joins netlist.circuit.splices
        ∧ netlist.nets.bare = draft.freeze
  parts : List.Forall₂ (Holds library netlists netlist) netlist.circuit.components netlist.parts
  words : ∀ bus, netlist.bubbles.get bus < Word.size
  clocks : netlist.ClocksListed

namespace Netlist

/-- The circuit of a netlist is that of the library at its position. -/
theorem Sound.found {library : Library} {netlists : List Netlist} {netlist : Netlist}
    (sound : netlist.Sound library netlists)
    : library.circuits[netlist.circuit.position]? = some netlist.circuit := by
  have there := List.getElem?_eq_getElem sound.inside
  have circuit_eq := sound.circuit_eq
  rw [Library.circuitAt, Library.circuit?, there, Option.getD_some] at circuit_eq
  rw [there, ← circuit_eq]

theorem Sound.components_eq {library : Library} {netlists : List Netlist} {netlist : Netlist}
    (sound : netlist.Sound library netlists)
    : netlist.parts.map Part.component = netlist.circuit.components := by
  have parts := sound.parts.imp fun _ _ holds => holds.component_eq
  generalize netlist.circuit.components = components at parts ⊢
  generalize netlist.parts = held at parts ⊢
  induction parts with
  | nil => rfl
  | cons same _ ih => rw [List.map_cons, same, ih]

/-- The ends of an instance are as wide as the pins of the circuit, one by one, by induction on its
components.
-/
theorem Sound.instanceEnds {library : Library} {netlists : List Netlist} {netlist : Netlist}
    (sound : netlist.Sound library netlists)
    : List.Forall₂
        (fun shape pin =>
          ∃ resolved, pin.ends = [resolved] ∧ resolved.width = EndShape.width shape)
        netlist.circuit.instanceEnds netlist.pins := by
  have parts := sound.parts
  rw [Circuit.instanceEnds, pins]
  generalize netlist.circuit.components = components at parts ⊢
  generalize netlist.parts = held at parts ⊢
  induction parts with
  | nil => exact .nil
  | @cons component part _ _ holds _ ih =>
      have same := holds.component_eq
      rw [List.filterMap_cons, List.filter_cons]
      split
      · next other =>
          split at other
          · cases other
          · next notPin =>
              have plain : part.isPin = false := by
                unfold Part.isPin Component.isPin
                rw [same]
                split
                · next direction kind => exact absurd kind (notPin direction)
                · rfl
              rwa [if_neg (by simp [plain])]
      · next shape made =>
          split at made
          · next direction kind =>
              obtain rfl := Option.some.inj made
              have boundary : part.isPin = true := isPin_of_kind (same ▸ kind)
              rw [if_pos boundary]
              refine .cons ?_ ih
              obtain ⟨resolved, ends, -⟩ := holds.pin direction kind
              have attached := holds.ends
              rw [ends, Library.ends, kind] at attached
              cases attached with
              | cons head _ =>
                  refine ⟨resolved, ends, ?_⟩
                  have width := head.width_eq
                  cases direction <;> exact width
          · cases made

theorem Sound.pins_length {library : Library} {netlists : List Netlist} {netlist : Netlist}
    (sound : netlist.Sound library netlists)
    : netlist.pins.length = netlist.circuit.instanceEnds.length :=
  sound.instanceEnds.length_eq.symm

theorem Sound.position_eq {library : Library} {netlists : List Netlist} {netlist : Netlist}
    (sound : netlist.Sound library netlists) (wellFormed : library.WellFormed) {i : Nat}
    {part : Part} (found : netlist.parts[i]? = some part)
    : part.position = i := by
  have placed : netlist.circuit.components[i]? = some part.component := by
    rw [← sound.components_eq, List.getElem?_map, found, Option.map_some]
  exact (wellFormed.circuits _ _ sound.found).positions i _ placed

/-- The pins of a netlist stand at different positions. -/
theorem Sound.pins_distinct {library : Library} {netlists : List Netlist} {netlist : Netlist}
    (sound : netlist.Sound library netlists) (wellFormed : library.WellFormed)
    : (netlist.pins.map Part.position).Nodup := by
  have all : (netlist.parts.map Part.position).Nodup := by
    have distinct := (wellFormed.circuits _ _ sound.found).positions_distinct
    rwa [← sound.components_eq, List.map_map] at distinct
  exact all.sublist (List.filter_sublist.map _)

end Netlist

namespace Hierarchy

variable {library : Library} {netlists : List Netlist} {registry : ClockRegistry}

/-- Before the clocks sink, every netlist is sound with those before it. -/
theorem Assembled.sound [Arithmetic] (wellFormed : library.WellFormed)
    (assembled : Assembled library netlists registry) {before after : List Netlist}
    {netlist : Netlist} (split : netlists = before ++ netlist :: after)
    : netlist.Sound library before := by
  obtain ⟨trees, analyzed, done, rfl, inside⟩ := assembled.analyzed wellFormed split
  obtain ⟨stages⟩ := Netlist.analyze_stages done
  obtain ⟨draft, collected, frozen⟩ := Netlist.bareNets_collected stages.formed
  have circuit_eq := stages.circuit_eq
  have name_eq := stages.name_eq
  rw [← circuit_eq] at name_eq
  have listed := assembled.clocksListed
  refine
    {
      inside,
      circuit_eq,
      name_eq,
      nets := ⟨draft, circuit_eq ▸ collected, ?_⟩,
      parts := circuit_eq ▸ stages.holds,
      words := fun bus => (stages.bubbles_eq bus).1 ▸ Nat.mod_lt _ Word.size_pos,
      clocks := listed _ (by simp [split])
    }
  rw [stages.bare_nets, frozen, Net.Table.bare_freeze]

/-- Feeds that agree on a tree all come from it. -/
theorem eq_of_agreed? {feeds : List (Option Nat)} {tree : Nat} (agreed : agreed? feeds = some tree)
    : ∀ feed ∈ feeds, feed = some tree := by
  cases feeds with
  | nil => cases agreed
  | cons first rest =>
      simp only [agreed?] at agreed
      split at agreed
      · next all =>
          subst agreed
          intro feed member
          rcases List.mem_cons.mp member with rfl | later
          · rfl
          · exact of_decide_eq_true (List.all_eq_true.mp all feed later)
      · cases agreed

/-- A circuit hands no tree to a circuit that it instantiates without using the tree itself. -/
theorem clockTree_of_inherited {parents : List Netlist} {parent child : Netlist} {pin : Part}
    {tree : Nat} (member : parent ∈ parents) (listed : parent.ClocksListed)
    (inherited : inherited? parents child pin = some (pin.position, tree))
    (boundary : pin ∈ child.pins) {part : Part} (held : part ∈ parent.parts) {target : CircuitRef}
    (kind : part.component.kind = .subcircuit target)
    (same : target.position = child.circuit.position)
    (ends : part.ends.length = child.pins.length)
    : tree ∈ parent.clockTrees := by
  simp only [inherited?] at inherited
  split at inherited
  · obtain ⟨agreed, found, made⟩ := Option.map_eq_some_iff.mp inherited
    obtain rfl : agreed = tree := (Prod.mk.inj made).2
    obtain ⟨i, atPin⟩ := List.getElem?_of_mem boundary
    have inside : i < part.ends.length := by
      rw [ends]
      exact (List.getElem?_eq_some_iff.mp atPin).1
    have paired : (part.ends[i], pin) ∈ part.ends.zip child.pins := by
      refine List.mem_of_getElem? (i := i) ?_
      simp [List.getElem?_zip_eq_some, List.getElem?_eq_getElem inside, atPin]
    have fed
        : part.ends[i].singlePoint?.bind parent.clockTreeOf?
          ∈ feeds parent child.circuit.position child.pins pin.position := by
      refine List.mem_flatMap.mpr ⟨part, held, ?_⟩
      simp only [kind, same, if_true]
      exact List.mem_filterMap.mpr ⟨(part.ends[i], pin), paired, by simp⟩
    have carried := eq_of_agreed? found _ (List.mem_flatMap.mpr ⟨parent, member, fed⟩)
    obtain ⟨point, -, carries⟩ := Option.bind_eq_some_iff.mp carried
    exact listed.clockTreeOf? carries
  · cases inherited

-----------------------------------------------------------------------------------------
-- The whole design
-----------------------------------------------------------------------------------------

/-- A circuit that was analyzed before another one is found among the settled netlists, and the
later one is among those that settle it.
-/
theorem Assembled.found_settled [Machine] (wellFormed : library.WellFormed)
    (assembled : Assembled library netlists registry) {before after : List Netlist}
    {raw child : Netlist} (split : netlists = before ++ raw :: after) {target : Nat}
    (found : ofCircuit? before target = some child)
    : ∃ first second,
        netlists = first ++ child :: (second ++ raw :: after)
        ∧ ofCircuit? (sinkClocks netlists) target
          = some (settle (sinkClocks (second ++ raw :: after)) child) := by
  obtain ⟨member, rfl⟩ := Netlist.ofCircuit?_mem found
  obtain ⟨first, second, rfl⟩ := List.append_of_mem member
  have childSplit : netlists = first ++ child :: (second ++ raw :: after) := by
    rw [split, List.append_assoc, List.cons_append]
  have settled
      : settle (sinkClocks (second ++ raw :: after)) child ∈ sinkClocks netlists := by
    rw [childSplit]
    exact (sinkClocks_suffix first _).subset List.mem_cons_self
  have distinct : (positions (sinkClocks netlists)).Nodup := by
    rw [sinkClocks_positions]
    exact assembled.distinct wellFormed
  have here := Netlist.ofCircuit?_of_mem distinct settled
  rw [(settle_sameBody _ child).circuit_eq] at here
  exact ⟨first, second, childSplit, here⟩

/-- A settled netlist holds its parts with the settled netlists of the whole design. -/
theorem Assembled.sound_settled [Machine] (wellFormed : library.WellFormed)
    (assembled : Assembled library netlists registry) {before after : List Netlist} {raw : Netlist}
    (split : netlists = before ++ raw :: after)
    : (settle (sinkClocks after) raw).Sound library (sinkClocks netlists) := by
  have sound := assembled.sound wellFormed split
  have same := settle_sameBody (sinkClocks after) raw
  refine
    {
      inside := same.circuit_eq ▸ sound.inside,
      circuit_eq := same.circuit_eq ▸ sound.circuit_eq,
      name_eq := by rw [same.name_eq, same.circuit_eq, sound.name_eq],
      nets := by rw [same.circuit_eq, same.nets_eq]; exact sound.nets,
      parts := ?_,
      words := same.bubbles_eq ▸ sound.words,
      clocks := settle_clocksListed _ sound.clocks
    }
  rw [same.circuit_eq, same.parts_eq]
  refine forall₂_imp_mem sound.parts fun component _ part held holds => ?_
  refine
    {
      component_eq := holds.component_eq,
      ends := same.nets_eq ▸ holds.ends,
      pin := holds.pin,
      notPin := holds.notPin,
      subcircuit := fun target kind => ?_,
      clock := fun tree clocked =>
        ⟨(holds.clock tree clocked).1, same.clockTrees (holds.clock tree clocked).2⟩
    }
  obtain ⟨child, found, reserved, trees⟩ := holds.subcircuit target kind
  have there := (Netlist.ofCircuit?_mem found).2
  -- The child was analyzed earlier, so its parent is among the netlists that settle it.
  obtain ⟨first, second, childSplit, here⟩ := assembled.found_settled wellFormed split found
  have childSound := assembled.sound wellFormed childSplit
  have childSame := settle_sameBody (sinkClocks (second ++ raw :: after)) child
  have parentMember
      : settle (sinkClocks after) raw ∈ sinkClocks (second ++ raw :: after) :=
    (sinkClocks_suffix second _).subset List.mem_cons_self
  refine ⟨_, here, ?_, fun tree used => ?_⟩
  · rw [childSame.bubbles_eq]
    exact reserved
  · rcases mem_settle_clockTrees used with own | ⟨pin, boundary, inherited⟩
    · exact same.clockTrees (trees own)
    · have ends : part.ends.length = child.pins.length := by
        rw [childSound.pins_length, ← holds.ends.length_eq, childSound.circuit_eq, there]
        simp [Library.ends, kind]
      exact
        clockTree_of_inherited parentMember (settle_clocksListed _ sound.clocks) inherited boundary
          (same.parts_eq ▸ held) (holds.component_eq ▸ kind) there.symm ends

/-- Every netlist of an analyzed design is sound. -/
theorem analyze_sound [Machine] (wellFormed : library.WellFormed) {top : CircuitRef}
    {hierarchy : Hierarchy}
    (h : analyze library top = .ok hierarchy)
    : ∀ netlist ∈ hierarchy.netlists, netlist.Sound library hierarchy.netlists := by
  obtain ⟨netlists, sunk, assembled, -⟩ := analyze_eq_ok wellFormed h
  intro netlist member
  rw [sunk] at member ⊢
  obtain ⟨before, raw, after, split, rfl⟩ := mem_sinkClocks member
  exact assembled.sound_settled wellFormed split

/-- The netlists are those of different circuits, in the order of a visit from the top. -/
theorem analyze_visits [Machine] (wellFormed : library.WellFormed) {top : CircuitRef}
    {hierarchy : Hierarchy} (h : analyze library top = .ok hierarchy)
    : (positions hierarchy.netlists).Nodup
      ∧ Visits library.below [top.position] [] (positions hierarchy.netlists) := by
  obtain ⟨netlists, sunk, assembled, order⟩ := analyze_eq_ok wellFormed h
  rw [sunk, sinkClocks_positions]
  exact ⟨assembled.distinct wellFormed, order⟩

/-- An analyzed design: the circuits are those of a well-formed library, and the netlists are sound
and of different circuits.
-/
structure Sound (library : Library) (hierarchy : Hierarchy) : Prop where
  wellFormed : library.WellFormed
  netlists : ∀ netlist ∈ hierarchy.netlists, netlist.Sound library hierarchy.netlists
  distinct : (positions hierarchy.netlists).Nodup

theorem sound_of_analyze [Machine] (wellFormed : library.WellFormed) {top : CircuitRef}
    {hierarchy : Hierarchy} (h : analyze library top = .ok hierarchy)
    : hierarchy.Sound library :=
  ⟨wellFormed, analyze_sound wellFormed h, (analyze_visits wellFormed h).1⟩

/-- Every part of a netlist is held for its component, which has a supported shape. -/
theorem Sound.part {hierarchy : Hierarchy} (sound : hierarchy.Sound library) {netlist : Netlist}
    (member : netlist ∈ hierarchy.netlists) {part : Part} (held : part ∈ netlist.parts)
    : Netlist.Holds library hierarchy.netlists netlist part.component part
      ∧ part.component.Supported := by
  have inside := sound.netlists netlist member
  obtain ⟨component, listed, holds⟩ := forall₂_mem_right inside.parts held
  obtain rfl := holds.component_eq
  exact ⟨holds, (sound.wellFormed.circuits _ _ inside.found).supported _ listed⟩

-----------------------------------------------------------------------------------------
-- Reachable circuits
-----------------------------------------------------------------------------------------

variable {top : CircuitRef} {hierarchy : Hierarchy}

/-- Where a netlist of an analyzed design comes from: the stages of the analysis of its circuit,
after circuits whose netlists are in the design, with other clocks at most.
-/
theorem analyze_stages [Machine] (wellFormed : library.WellFormed)
    (h : analyze library top = .ok hierarchy) {netlist : Netlist}
    (member : netlist ∈ hierarchy.netlists)
    : ∃ children trees analyzed,
        Nonempty
          (Netlist.Stages library (library.circuitAt netlist.circuit.position) children trees
            analyzed)
        ∧ SameBody analyzed.netlist netlist
        ∧ ∀ target child,
            ofCircuit? children target = some child
            → ∃ settled,
                ofCircuit? hierarchy.netlists target = some settled ∧ SameBody child settled := by
  obtain ⟨netlists, sunk, assembled, -⟩ := analyze_eq_ok wellFormed h
  rw [sunk] at member ⊢
  obtain ⟨before, raw, after, split, rfl⟩ := mem_sinkClocks member
  obtain ⟨trees, analyzed, done, rfl, -⟩ := assembled.analyzed wellFormed split
  have same := settle_sameBody (sinkClocks after) analyzed.netlist
  rw [same.circuit_eq]
  refine ⟨before, trees, analyzed, Netlist.analyze_stages done, same, fun target child found => ?_⟩
  obtain ⟨first, second, -, here⟩ := assembled.found_settled wellFormed split found
  exact ⟨_, here, settle_sameBody _ _⟩

/-- The endpoints on the nets of an analyzed design are the connected bits of the parts. -/
theorem analyze_landed [Machine] (wellFormed : library.WellFormed)
    (h : analyze library top = .ok hierarchy) {netlist : Netlist}
    (member : netlist ∈ hierarchy.netlists) (role : Role) (net : Nat) (endpoint : Net.Endpoint)
    : endpoint ∈ netlist.nets.landed role net
      ↔ ∃ part ∈ netlist.parts, Netlist.Lands part role net endpoint := by
  obtain ⟨children, trees, analyzed, ⟨stages⟩, same, -⟩ := analyze_stages wellFormed h member
  rw [same.nets_eq, same.parts_eq]
  exact stages.landed role net endpoint

/-- The netlists of a design are those of the circuits that are reached from the top, one for each,
with a part for every component.
-/
structure Covers (library : Library) (hierarchy : Hierarchy) (top : CircuitRef) : Prop where
  reachable
    : ∀ circuit,
        circuit ∈ positions hierarchy.netlists
        ↔ Relation.ReflTransGen (fun a b => b ∈ library.below a) top.position circuit
  distinct : (positions hierarchy.netlists).Nodup
  placements
    : ∀ netlist ∈ hierarchy.netlists,
        netlist.parts.map Part.component
        = (library.circuitAt netlist.circuit.position).components

theorem analyze_covers [Machine] (wellFormed : library.WellFormed)
    (h : analyze library top = .ok hierarchy)
    : hierarchy.Covers library top := by
  obtain ⟨distinct, visits⟩ := analyze_visits wellFormed h
  refine ⟨fun circuit => visits.mem_iff_reachable, distinct, fun netlist member => ?_⟩
  have sound := analyze_sound wellFormed h netlist member
  rw [sound.components_eq, ← sound.circuit_eq]

/-- Every circuit that is reached from the top has a netlist with one part for each component. -/
theorem reachable_netlist [Machine] (wellFormed : library.WellFormed)
    (h : analyze library top = .ok hierarchy) {circuit : Nat}
    (reachable : Relation.ReflTransGen (fun a b => b ∈ library.below a) top.position circuit)
    : ∃ netlist,
        ofCircuit? hierarchy.netlists circuit = some netlist
        ∧ netlist ∈ hierarchy.netlists
        ∧ netlist.parts.map Part.component = (library.circuitAt circuit).components := by
  obtain ⟨-, visits⟩ := analyze_visits wellFormed h
  obtain ⟨netlist, found⟩ :=
    Option.isSome_iff_exists.mp
      (Netlist.ofCircuit?_isSome.mpr (visits.mem_iff_reachable.mpr reachable))
  obtain ⟨member, rfl⟩ := Netlist.ofCircuit?_mem found
  have sound := analyze_sound wellFormed h netlist member
  exact ⟨netlist, found, member, sound.circuit_eq ▸ sound.components_eq⟩

/-- The library that steps build, with the hierarchy below one of its circuits. -/
def analyzeBuilt? [Machine] (steps : List BuildStep) (top : CircuitRef) : Option
    (Library × Hierarchy) := do
  let (_, library) ← ((steps.forM BuildStep.perform).run (.empty 0)).toOption
  let hierarchy ← (analyze library top).toOption
  return (library, hierarchy)

theorem built_of_analyzeBuilt? [Machine] {steps : List BuildStep}
    (h : analyzeBuilt? steps top = some (library, hierarchy))
    : library.Built ∧ analyze library top = .ok hierarchy := by
  simp only [analyzeBuilt?, bind, Option.bind_eq_some_iff, toOption_eq_some, pure,
    Option.some.injEq, Prod.mk.injEq] at h
  obtain ⟨⟨_, _⟩, performed, _, analyzed, rfl, rfl⟩ := h
  exact ⟨Library.built_of_steps performed, analyzed⟩

end Hierarchy

end SchematicHdl
