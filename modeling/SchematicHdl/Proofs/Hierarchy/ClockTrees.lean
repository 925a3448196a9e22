import SchematicHdl.Proofs.Hierarchy.Sound
import SchematicHdl.Proofs.Netlist.ClockSources

/-! Clock trees of an analyzed design. A circuit uses every tree of the circuits that it
instantiates, also after trees have sunk into these, so the top circuit uses all trees there are;
and clock sources share a tree just when they have the same shape.
-/

namespace SchematicHdl

open Netlist (ofCircuit? OnItsTree)
open Outcome

namespace Hierarchy

-----------------------------------------------------------------------------------------
-- Registered trees
-----------------------------------------------------------------------------------------

/-- Netlists use the trees of a registry, no others, and their clock sources are on their trees. -/
structure Registered (netlists : List Netlist) (registry : ClockRegistry) : Prop where
  distinct : registry.shapes.Nodup
  inside : ∀ netlist ∈ netlists, ∀ tree ∈ netlist.clockTrees, tree < registry.shapes.length
  used : ∀ tree < registry.shapes.length, ∃ netlist ∈ netlists, tree ∈ netlist.clockTrees
  sources : ∀ netlist ∈ netlists, ∀ part ∈ netlist.parts, OnItsTree registry part

variable {library : Library} {netlists : List Netlist} {registry : ClockRegistry}

/-- Assembled netlists are registered, by induction on the netlists. -/
theorem Assembled.registered [Arithmetic] (assembled : Assembled library netlists registry)
    : Registered netlists registry := by
  induction assembled with
  | nil => exact ⟨.nil, nofun, nofun, nofun⟩
  | snoc _ _ _ done ih =>
      obtain ⟨stages⟩ := Netlist.analyze_stages done
      obtain ⟨kept, onTrees⟩ := stages.onItsTree
      obtain ⟨distinct, inside, used⟩ := stages.accounts ih.distinct ih.inside
      refine ⟨distinct, ?_, fun tree registered => ?_, ?_⟩
      · intro netlist member tree listed
        rcases List.mem_append.mp member with earlier | last
        · exact Nat.lt_of_lt_of_le (ih.inside netlist earlier tree listed) kept.length_le
        · obtain rfl := List.mem_singleton.mp last
          exact inside tree listed
      · rcases used tree registered with earlier | here
        · obtain ⟨netlist, member, listed⟩ := ih.used tree earlier
          exact ⟨netlist, List.mem_append_left _ member, listed⟩
        · exact ⟨_, List.mem_append_right _ List.mem_cons_self, here⟩
      · intro netlist member part held
        rcases List.mem_append.mp member with earlier | last
        · exact (ih.sources netlist earlier part held).later kept
        · obtain rfl := List.mem_singleton.mp last
          exact onTrees part held

theorem sinkClocks_clocksListed [Machine] (listed : ∀ netlist ∈ netlists, netlist.ClocksListed)
    : ∀ netlist ∈ sinkClocks netlists, netlist.ClocksListed := by
  intro netlist member
  obtain ⟨before, raw, after, rfl, rfl⟩ := mem_sinkClocks member
  exact settle_clocksListed _ (listed raw (by simp))

/-- A tree is inherited from a parent that uses it. -/
theorem exists_parent_of_inherited {parents : List Netlist} {child : Netlist} {pin : Part}
    {clock : Nat × Nat} (listed : ∀ parent ∈ parents, parent.ClocksListed)
    (inherited : inherited? parents child pin = some clock)
    : ∃ parent ∈ parents, clock.2 ∈ parent.clockTrees := by
  simp only [inherited?] at inherited
  split at inherited
  · obtain ⟨tree, found, rfl⟩ := Option.map_eq_some_iff.mp inherited
    have agreed := eq_of_agreed? found
    cases fed : parents.flatMap (fun parent =>
        feeds parent child.circuit.position child.pins pin.position) with
    | nil =>
        rw [fed] at found
        cases found
    | cons feed rest =>
        -- Feeds that agree on a tree are never empty, and each comes from a point of a parent.
        have here : feed ∈ parents.flatMap (fun parent =>
            feeds parent child.circuit.position child.pins pin.position) := by
          rw [fed]
          exact List.mem_cons_self
        obtain ⟨parent, member, carried⟩ := List.mem_flatMap.mp here
        rw [agreed feed here] at carried
        obtain ⟨part, -, carried⟩ := List.mem_flatMap.mp carried
        refine ⟨parent, member, ?_⟩
        split at carried
        · split at carried
          · obtain ⟨⟨resolved, candidate⟩, -, taken⟩ := List.mem_filterMap.mp carried
            dsimp only at taken
            split at taken
            · obtain ⟨point, -, carries⟩ := Option.bind_eq_some_iff.mp (Option.some.inj taken)
              exact (listed parent member).clockTreeOf? carries
            · cases taken
          · cases carried
        · cases carried
  · cases inherited

/-- Trees only sink from circuits that use them, by induction on the netlists. -/
theorem exists_raw_of_sunk [Machine] (listed : ∀ netlist ∈ netlists, netlist.ClocksListed)
    {netlist : Netlist} (member : netlist ∈ sinkClocks netlists) {tree : Nat}
    (uses : tree ∈ netlist.clockTrees)
    : ∃ raw ∈ netlists, tree ∈ raw.clockTrees := by
  induction netlists generalizing netlist tree with
  | nil => cases member
  | cons head rest ih =>
      obtain ⟨headListed, restListed⟩ := List.forall_mem_cons.mp listed
      have below {parent : Netlist} (later : parent ∈ sinkClocks rest)
          (uses : tree ∈ parent.clockTrees)
          : ∃ raw ∈ head :: rest, tree ∈ raw.clockTrees := by
        obtain ⟨raw, inside, owns⟩ := ih restListed later uses
        exact ⟨raw, List.mem_cons_of_mem _ inside, owns⟩
      rcases List.mem_cons.mp member with rfl | later
      · rcases mem_settle_clockTrees uses with own | ⟨pin, -, inherited⟩
        · exact ⟨head, List.mem_cons_self, own⟩
        · obtain ⟨parent, later, owns⟩ :=
            exists_parent_of_inherited (sinkClocks_clocksListed restListed) inherited
          exact below later owns
      · exact below later uses

/-- Sunk netlists are registered where the netlists are that they come from. -/
theorem Registered.sunk [Machine] (registered : Registered netlists registry)
    (listed : ∀ netlist ∈ netlists, netlist.ClocksListed)
    : Registered (sinkClocks netlists) registry where
  distinct := registered.distinct
  inside := by
    intro netlist member tree uses
    obtain ⟨raw, inside, owns⟩ := exists_raw_of_sunk listed member uses
    exact registered.inside raw inside tree owns
  used := by
    intro tree inside
    obtain ⟨raw, member, owns⟩ := registered.used tree inside
    obtain ⟨netlist, sunk, same⟩ := forall₂_mem_right (sinkClocks_sameBody netlists).flip member
    exact ⟨netlist, sunk, same.clockTrees owns⟩
  sources := by
    intro netlist member part held
    obtain ⟨raw, inside, same⟩ := forall₂_mem_right (sinkClocks_sameBody netlists) member
    exact registered.sources raw inside part (same.parts_eq ▸ held)

-----------------------------------------------------------------------------------------
-- The whole design
-----------------------------------------------------------------------------------------

variable {top : CircuitRef} {hierarchy : Hierarchy}

theorem analyze_registered [Machine] (wellFormed : library.WellFormed)
    (h : analyze library top = .ok hierarchy)
    : Registered hierarchy.netlists hierarchy.registry := by
  obtain ⟨netlists, sunk, assembled, -⟩ := analyze_eq_ok wellFormed h
  rw [sunk]
  exact assembled.registered.sunk assembled.clocksListed

/-- The top circuit uses the trees of everything below it, by induction on the way down. -/
theorem clockTrees_subset_top [Machine] (wellFormed : library.WellFormed)
    (h : analyze library top = .ok hierarchy) {topmost netlist : Netlist}
    (atTop : ofCircuit? hierarchy.netlists top.position = some topmost) {circuit : Nat}
    (path : Relation.ReflTransGen (fun a b => b ∈ library.below a) top.position circuit)
    (found : ofCircuit? hierarchy.netlists circuit = some netlist)
    : netlist.clockTrees ⊆ topmost.clockTrees := by
  induction path generalizing netlist with
  | refl =>
      rw [atTop] at found
      exact Option.some.inj found ▸ List.Subset.refl _
  | tail path step ih =>
      obtain ⟨parent, atParent, member, -⟩ := reachable_netlist wellFormed h path
      have known := analyze_sound wellFormed h parent member
      obtain rfl := (Netlist.ofCircuit?_mem atParent).2
      rw [Library.below, ← known.circuit_eq] at step
      obtain ⟨component, listed, targets⟩ := List.mem_filterMap.mp step
      obtain ⟨target, kind, rfl⟩ := Component.target?_eq_some.mp targets
      obtain ⟨i, atComponent⟩ := List.getElem?_of_mem listed
      obtain ⟨part, -, holds⟩ := forall₂_getElem? known.parts atComponent
      obtain ⟨child, atChild, -, trees⟩ := holds.subcircuit target kind
      rw [atChild] at found
      exact Option.some.inj found ▸ List.Subset.trans trees (ih atParent)

/-- The clock trees of an analyzed design run through all of its circuits. -/
structure ThreadsClocks (library : Library) (hierarchy : Hierarchy) (top : CircuitRef) : Prop where
  circuits
    : ∀ circuit,
        Relation.ReflTransGen (fun a b => b ∈ library.below a) top.position circuit
        → ∃ netlist,
            ofCircuit? hierarchy.netlists circuit = some netlist
            ∧ netlist.parts.map Part.component = (library.circuitAt circuit).components
            ∧ netlist.ClocksListed
            ∧ ∀ part ∈ netlist.parts,
                ∀ target,
                  part.component.kind = .subcircuit target
                  → ∃ child,
                      ofCircuit? hierarchy.netlists target.position = some child
                      ∧ child.clockTrees ⊆ netlist.clockTrees
  top
    : ∃ netlist,
        ofCircuit? hierarchy.netlists top.position = some netlist
        ∧ ∀ tree, tree ∈ netlist.clockTrees ↔ tree < hierarchy.registry.trees.length
  sources
    : ∀ netlist ∈ hierarchy.netlists,
        ∀ part ∈ netlist.parts,
          part.component.kind = .clock
          → (∃ tree, part.clockTree = some tree ∧ tree < hierarchy.registry.trees.length)
            ∧ ∀ other ∈ hierarchy.netlists,
                ∀ source ∈ other.parts,
                  source.component.kind = .clock
                  → (part.clockTree = source.clockTree
                    ↔ ClockShape.ofAttributes part.component.attributes
                      = ClockShape.ofAttributes source.component.attributes)

/-- The clock trees of every analyzed design run through all of its circuits. -/
theorem analyze_threadsClocks [Machine] (built : library.Built)
    (h : analyze library top = .ok hierarchy)
    : hierarchy.ThreadsClocks library top := by
  have wellFormed := built.wellFormed
  have registered := analyze_registered wellFormed h
  have trees : hierarchy.registry.shapes.length = hierarchy.registry.trees.length :=
    List.length_map ..
  refine
    {
      circuits := fun circuit path => ?_,
      top := ?_,
      sources := fun netlist member part held kind => ?_
    }
  · obtain ⟨netlist, found, member, components⟩ := reachable_netlist wellFormed h path
    have sound := sound_of_analyze wellFormed h
    refine ⟨netlist, found, components, (sound.netlists netlist member).clocks, ?_⟩
    intro part held target kind
    obtain ⟨child, atChild, -, below⟩ := (sound.part member held).1.subcircuit target kind
    exact ⟨child, atChild, below⟩
  · obtain ⟨topmost, atTop, member, -⟩ := reachable_netlist wellFormed h .refl
    refine ⟨topmost, atTop, fun tree => ⟨fun uses => ?_, fun inside => ?_⟩⟩
    · exact trees ▸ registered.inside topmost member tree uses
    · obtain ⟨netlist, listed, uses⟩ := registered.used tree (trees ▸ inside)
      obtain ⟨distinct, visits⟩ := analyze_visits wellFormed h
      have path := visits.mem_iff_reachable.mp (List.mem_map_of_mem listed)
      have found := Netlist.ofCircuit?_of_mem distinct listed
      exact clockTrees_subset_top wellFormed h atTop path found uses
  · obtain ⟨tree, clocked, found⟩ := registered.sources netlist member part held kind
    have inside := (List.getElem?_eq_some_iff.mp found).1
    refine ⟨⟨tree, clocked, trees ▸ inside⟩, fun other listed source beside sourceKind => ?_⟩
    obtain ⟨another, sourced, there⟩ := registered.sources other listed source beside sourceKind
    rw [clocked, sourced, Option.some.injEq]
    exact ClockRegistry.eq_iff_of_shapes registered.distinct found there

/-- A leaf circuit that takes a clock in through a pin, a circuit with a clock of its own, and a top
circuit that feeds both with clocks of one shape and has a clock of another.
-/
def clockSteps : List BuildStep :=
  [
    .circuit "Leaf",
    .wire 0 1,
    .pin 0 .input "c" 1,
    .connect 0 0 0 ⟨0, 0⟩,
    .circuit "Source",
    .clock 1 (.ofList [("phase", .number 0)]),
    .circuit "Main",
    .wire 2 1,
    .clock 2 (.ofList [("high_ticks", .number 2)]),
    .connect 2 0 0 ⟨2, 0⟩,
    .subcircuit 2 ⟨0, 0, "Leaf"⟩,
    .connect 2 1 0 ⟨2, 0⟩,
    .subcircuit 2 ⟨0, 1, "Source"⟩,
    .clock 2 .empty
  ]

/-- One tree sinks into the leaf, and the clock at the top shares the tree of the other circuit. -/
theorem leaf_threadsClocks
    : ∃ library hierarchy,
        analyzeBuilt? clockSteps ⟨0, 2, "Main"⟩ = some (library, hierarchy)
        ∧ hierarchy.netlists.map (fun netlist => netlist.clockTrees) = [[1], [0], [0, 1]]
        ∧ hierarchy.ThreadsClocks library ⟨0, 2, "Main"⟩ := by
  have threaded
      : (analyzeBuilt? clockSteps ⟨0, 2, "Main"⟩).map
          (fun result => result.2.netlists.map (fun netlist => netlist.clockTrees))
        = some [[1], [0], [0, 1]] := by
    decide +kernel
  obtain ⟨⟨library, hierarchy⟩, found, trees⟩ := Option.map_eq_some_iff.mp threaded
  obtain ⟨built, analyzed⟩ := built_of_analyzeBuilt? found
  exact ⟨library, hierarchy, found, trees, analyze_threadsClocks built analyzed⟩

end Hierarchy

end SchematicHdl
