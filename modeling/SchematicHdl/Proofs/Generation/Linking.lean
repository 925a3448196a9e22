import SchematicHdl.Proofs.DesignFile.Build
import SchematicHdl.Proofs.Generation.Headers
import SchematicHdl.Proofs.Generation.Outputs
import SchematicHdl.Proofs.Generation.Runs

/-! Linking of what a run writes. An instance fits the definition that its own component asks for,
if the bubble busses around it hold its ranges; the definition that was written under this name may
come from another component, but has the same header.
-/

namespace SchematicHdl.Generation

open Hdl (Architecture Statement)
open SchematicHdl.Outcome

variable {library : Library} {hierarchy : Hierarchy} {options : Options}

section Analyzed

variable (sound : hierarchy.Sound library) (owns : library.OwnsEntities)
include sound owns

theorem component_owned {netlist : Netlist} (member : netlist ∈ hierarchy.netlists) {part : Part}
    (held : part ∈ netlist.parts)
    : part.component.Owned library := by
  have known := sound.netlists netlist member
  have listed : part.component ∈ netlist.circuit.components := by
    rw [← known.components_eq]
    exact List.mem_map_of_mem held
  exact owns.placed netlist.circuit (List.mem_of_getElem? known.found) part.component listed

/-- A written definition has the header of every definition with its name and origin. -/
theorem Backed.unit_eq {earlier : List Emitted} {definition : Emitted}
    (backed : Backed hierarchy options earlier definition) {netlist : Netlist}
    (member : netlist ∈ hierarchy.netlists) {part : Part} (held : part ∈ netlist.parts)
    {realization : Realization}
    (resolved
      : Realization.resolve hierarchy options.clockMode options.dialect part.component
        = .ok realization)
    (instantiated : realization.isInlined = false)
    (same : definition.key = realization.form.key) (architecture : Architecture)
    : realization.form.unit architecture = definition.form.unit architecture := by
  have resolves := Realization.resolve_resolves resolved
  have owned := component_owned sound owns member held
  cases backed with
  | leaf there inside other =>
      exact
        resolves.unit_eq sound owns owned (component_owned sound owns there inside)
          (Realization.resolve_resolves other) instantiated same.symm architecture
  | circuit there =>
      rw [resolves.form_eq_netlist sound there (congrArg Handled.origin same.symm)]

/-- Every instance in a circuit fits a definition that was written before the circuit. -/
theorem Linked.links {definitions : List Emitted}
    (linked : Linked hierarchy options definitions)
    (inside : ∀ netlist ∈ hierarchy.netlists, netlist.BubblesHeld) {definition : Emitted}
    (member : definition ∈ definitions) (circuit : definition.form.isCircuit = true)
    {inst : Hdl.Instance} (listed : .instantiate inst ∈ definition.architecture.statements)
    : ∃ used ∈ definitions, inst.Links (definition.unit.scope []) used.unit := by
  obtain ⟨earlier, later, rfl⟩ := List.append_of_mem member
  cases linked.backed rfl with
  | leaf _ _ resolved _ leaf =>
      rw [(Realization.resolve_resolves resolved).isCircuit_eq leaf] at circuit
      cases circuit
  | @circuit netlist body _ _ there ends supplied =>
      cases ends with
      | custom => simp [Architecture.raw] at listed
      | structural _ succeeds =>
          obtain ⟨openWires, formed⟩ := structuralArchitecture_formed sound there succeeds
          obtain ⟨placed, perm, realizes⟩ := formed.realizes
          have among : inst ∈ body.statements.filterMap Statement.instance? :=
            List.mem_filterMap.mpr ⟨_, listed, rfl⟩
          obtain ⟨part, chosen, realization, resolved, instantiated, -, links⟩ :=
            forall₂_mem_right realizes among
          obtain ⟨held, needed⟩ := List.mem_filter.mp (perm.mem_iff.mp chosen)
          obtain ⟨again, same, used, written, key_eq⟩ := supplied part held needed
          obtain rfl : realization = again := Except.ok.inj (resolved.symm.trans same)
          have usedMember : used ∈ earlier ++ ⟨netlist.form options.clockMode, body⟩ :: later :=
            List.mem_append_left _ written
          obtain ⟨before, after, split⟩ := List.append_of_mem usedMember
          have header :=
            (linked.backed split).unit_eq sound owns there held resolved instantiated key_eq
              used.architecture
          refine ⟨used, usedMember, ?_⟩
          show
            inst.Links (((netlist.form options.clockMode).unit body).scope [])
              (used.form.unit used.architecture)
          rw [formed.scope_eq, ← header]
          exact (links used.architecture).links (inside netlist there part held)

end Analyzed

/-- A component of a built-in type. -/
def primitiveEntry (type : String) (attributes : List (String × AttributeValue))
    (connections : List (Option Connection)) : ComponentEntry :=
  {
    type,
    label := none,
    attributes := .ofList attributes,
    connections,
    circuit := none,
    entity := none,
    width := none,
    ends := none
  }

/-- Two multiplexers of different widths, one of them with an enable input, and an entity. -/
def multiplexerFile : DesignFile :=
  {
    top := "Main",
    circuits := [
      {
        name := "Main",
        wires := [4, 8, 1],
        joins := [],
        splices := [],
        components := [
          primitiveEntry "multiplexer" [("width", .number 4)]
            [some (.wire 0), none, some (.wire 2), some (.wire 0)],
          primitiveEntry "multiplexer" [("width", .number 8), ("enable", .flag true)]
            [some (.wire 1), some (.bits (some ⟨2, 0⟩ :: List.replicate 7 none)), none, none,
              some (.wire 1)],
          { primitiveEntry "entity" [] [some (.wire 2)] with entity := some "Driver" }
        ],
        customBodies := []
      }
    ],
    entities := [⟨"Driver", .vhdl, [⟨"q", .output, 1⟩], ""⟩]
  }

/-- The outcome of a run from the top circuit of a design file, with the hierarchy that it is of. -/
def generateFile? [Machine] (file : DesignFile) (options : Options)
    : Option (Hierarchy × Library × CircuitRef × Outcome) := do
  let (library, top) ← file.elaborate.toOption
  let hierarchy ← (Hierarchy.analyze library top).toOption
  return (hierarchy, library, top, generate library top options)

end SchematicHdl.Generation
