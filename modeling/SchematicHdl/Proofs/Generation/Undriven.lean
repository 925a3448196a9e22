import SchematicHdl.Proofs.Generation.Coverage
import SchematicHdl.Proofs.Generation.Outputs
import SchematicHdl.Proofs.Generation.Reports
import SchematicHdl.Proofs.Hierarchy.Warnings

/-! Bits that are read. In a generated circuit each of them is driven, or a warning tells of its net
or of a component connected to it, with two exceptions: a gate may lack an operand at some bits, and
an end of an instance may belong to an inout pin that became a bubble.
-/

namespace SchematicHdl.Generation

open Hdl (Architecture DesignUnit Expr Instance Statement)
open Net (Endpoint)
open SchematicHdl.Outcome

-----------------------------------------------------------------------------------------
-- Settled bits
-----------------------------------------------------------------------------------------

/-- What is known of a bit of a net that is read in a circuit. -/
inductive Settled (hierarchy : Hierarchy) (netlist : Netlist) (drivers : List Expr)
    (warnings : List String) (net bit : Nat)
    : Prop
  | driven (driven : netlist.DrivesPoint drivers ⟨net, bit⟩)
  | netTold {bits} (inside : bit ∈ bits)
    (told
      : Tells warnings (Netlist.undrivenWarning netlist.circuit netlist.nets net bits))
  | partTold {part source} (held : part ∈ netlist.parts)
    (lands : Netlist.Lands part .driver net source) (same : source.netBit = bit)
    (told : Tells warnings part.component.undrivenWarning)
  /-- A gate lacks an operand there, and nothing tells of it. -/
  | lacking {part source} (held : part ∈ netlist.parts)
    (lands : Netlist.Lands part .driver net source) (same : source.netBit = bit)
    (lacks : part.LacksOperand source.bit)
  /-- An inout pin of an instantiated circuit became a bubble, and nothing tells of it. -/
  | shared {part source} (held : part ∈ netlist.parts)
    (lands : Netlist.Lands part .driver net source) (same : source.netBit = bit)
    (bubble : part.OnBubble hierarchy.netlists source.endIndex .inout)

/-- Every bit that a part of the circuit reads is settled, whatever the bodies of the definitions
that the architecture instantiates.
-/
def SettlesReads (hierarchy : Hierarchy) (options : Options) (netlist : Netlist)
    (warnings : List String) (architecture : Architecture)
    : Prop :=
  ∃ placed,
    Instantiates hierarchy options netlist placed architecture
    ∧ ∀ bodies : Realization → Architecture,
        let units := placed.map (fun pair => pair.2.form.unit (bodies pair.2))
        ∀ reader ∈ netlist.parts,
          ∀ net sink,
            Netlist.Lands reader .reader net sink
            → Settled hierarchy netlist
                (architecture.drivers units ++ architecture.bound units .inout) warnings net
                sink.netBit

variable {library : Library} {hierarchy : Hierarchy} {options : Options} {netlist : Netlist}
  {openWires : List String} {architecture : Architecture} {placed : List (Part × Realization)}

-----------------------------------------------------------------------------------------
-- Parts that drive
-----------------------------------------------------------------------------------------

/-- What an instance is bound to is bound in the architecture. -/
theorem bound_subset
    (made
      : List.Forall₂ (MadeFor hierarchy options netlist openWires) placed
          (architecture.statements.filterMap Statement.instance?))
    (bodies : Realization → Architecture) {pair : Part × Realization} (listed : pair ∈ placed)
    : ∃ inst,
        MadeFor hierarchy options netlist openWires pair inst
        ∧ ∀ direction,
            Instance.bound inst (pair.2.form.unit (bodies pair.2)) direction
              ⊆ architecture.bound (placed.map (fun pair => pair.2.form.unit (bodies pair.2)))
                  direction := by
  have paired := forall₂_zip_map made (fun pair => pair.2.form.unit (bodies pair.2))
  obtain ⟨⟨unit, inst⟩, among, rfl, madeFor⟩ := forall₂_mem_right paired.flip listed
  refine ⟨inst, madeFor, fun direction expr member => ?_⟩
  exact List.mem_flatMap.mpr ⟨_, among, member⟩

/-- An end of an instance is driven unless its pin became a bubble. -/
theorem instance_drivesEnd_or_bubble (sound : hierarchy.Sound library)
    (analyzed : netlist ∈ hierarchy.netlists)
    (instantiates : Instantiates hierarchy options netlist placed architecture)
    (made
      : List.Forall₂ (MadeFor hierarchy options netlist openWires) placed
          (architecture.statements.filterMap Statement.instance?))
    (bodies : Realization → Architecture) {part : Part} (held : part ∈ netlist.parts)
    (instantiated : part.isInstantiated = true) {endIndex : Nat} {resolved : ResolvedEnd}
    (found : part.end? endIndex = some resolved) (drives : resolved.direction.drives = true)
    : netlist.DrivesEnd
          (architecture.bound (placed.map (fun pair => pair.2.form.unit (bodies pair.2)))
            resolved.direction)
          resolved
      ∨ part.OnBubble hierarchy.netlists endIndex resolved.direction := by
  have chosen : part ∈ placed.map Prod.fst :=
    instantiates.parts.mem_iff.mpr (List.mem_filter.mpr ⟨held, instantiated⟩)
  obtain ⟨pair, listed, rfl⟩ := List.mem_map.mp chosen
  obtain ⟨inst, madeFor, within⟩ := bound_subset made bodies listed
  obtain ⟨label, notes, notes', instantiate, -⟩ := madeFor.made
  obtain ⟨holds, supported⟩ := sound.part analyzed held
  have resolves := Realization.resolve_resolves madeFor.resolved
  rcases resolves.port_or_bubble sound holds supported madeFor.notInlined found drives
    with port | bubble
  · obtain ⟨port, member, source⟩ := port
    refine .inl (.mono ?_ (within _))
    exact Placement.instantiate_drivesEnd instantiate drives member source found _
  · exact .inr bubble

/-- A bit that a part drives is settled by what the part becomes. -/
theorem settled_of_driver {units : List DesignUnit} {noted warnings : List String}
    (drafted
      : Drafted hierarchy netlist (architecture.statements.flatMap Statement.targets) noted)
    (told : ∀ message ∈ noted, Tells warnings message)
    (instances
      : ∀ part ∈ netlist.parts,
          part.isInstantiated = true
          → ∀ endIndex resolved,
              part.end? endIndex = some resolved
              → resolved.direction.drives = true
              → netlist.DrivesEnd (architecture.bound units resolved.direction) resolved
                ∨ part.OnBubble hierarchy.netlists endIndex resolved.direction)
    {part : Part} (held : part ∈ netlist.parts) {net : Nat} {source : Endpoint}
    (lands : Netlist.Lands part .driver net source)
    : Settled hierarchy netlist (architecture.drivers units ++ architecture.bound units .inout)
        warnings net source.netBit := by
  have assigned {target : Expr}
      (member : target ∈ architecture.statements.flatMap Statement.targets)
      : target ∈ architecture.drivers units ++ architecture.bound units .inout :=
    List.mem_append_left _ (List.mem_append_left _ member)
  cases instantiated : part.isInstantiated with
  | false =>
      rcases drafted.accounts part held instantiated net source lands with driven | warned | lacks
      · exact .driven (driven.mono fun _ => assigned)
      · exact .partTold held lands rfl (told _ warned)
      · exact .lacking held lands rfl lacks
  | true =>
      obtain ⟨resolved, found, drives, connected, -⟩ := id lands
      have point := List.mem_of_getElem? connected
      have bound := instances part held instantiated _ _ found drives
      cases direction : resolved.direction with
      | input =>
          rw [direction] at drives
          cases drives
      | output =>
          rw [direction] at bound
          rcases bound with driven | bubble
          · refine .driven ((driven _ point).mono fun _ member => ?_)
            exact List.mem_append_left _ (List.mem_append_right _ member)
          · have tied := drafted.ties part held source.endIndex resolved bubble found
            exact .driven ((tied _ point).mono fun _ => assigned)
      | inout =>
          rw [direction] at bound
          rcases bound with driven | bubble
          · exact .driven ((driven _ point).mono fun _ => List.mem_append_right _)
          · exact .shared held lands rfl bubble

-----------------------------------------------------------------------------------------
-- Parts that read
-----------------------------------------------------------------------------------------

/-- A circuit that is formed along a run settles what its parts read. -/
theorem settlesReads_of_formed [Machine] (wellFormed : library.WellFormed) {top : CircuitRef}
    (analyzed : Hierarchy.analyze library top = .ok hierarchy)
    (member : netlist ∈ hierarchy.netlists) (realizable : netlist.isRealizable = true)
    {warnings : List String} (issued : hierarchy.warnings ⊆ warnings)
    (formed : FormedWith hierarchy options warnings netlist architecture)
    : SettlesReads hierarchy options netlist warnings architecture := by
  obtain ⟨before, after, forms, within⟩ := formed
  have sound := Hierarchy.sound_of_analyze wellFormed analyzed
  have registered := Hierarchy.analyze_registered wellFormed analyzed
  obtain ⟨openWires, known⟩ := structuralArchitecture_formed sound member forms
  obtain ⟨draft, drafts, rfl⟩ := structuralArchitecture_succeeds forms
  have drafted := draftArchitecture_drafted sound member registered realizable drafts
  have told (message : String) (noted : message ∈ draft.notes.warnings)
      : Tells warnings message :=
    ⟨before, within (List.mem_append_right _ (List.mem_map_of_mem noted))⟩
  obtain ⟨placed, instantiates, made⟩ := known.instantiates
  refine ⟨placed, instantiates, ?_⟩
  intro bodies units reader held net sink reads
  rcases Hierarchy.driver_or_warning wellFormed analyzed member held reads with driver | warned
  · obtain ⟨part, beside, source, lands, same⟩ := driver
    rw [← same]
    exact
      settled_of_driver drafted told
        (fun _ there instantiated _ _ =>
          instance_drivesEnd_or_bubble sound member instantiates made bodies there instantiated)
        beside lands
  · obtain ⟨bits, inside, warned⟩ := warned
    exact .netTold inside (tells_of_mem (issued warned))

/-- A successful run settles what is read in each circuit that it generates. -/
theorem generate_settlesReads [Machine] (built : library.Built) {top : CircuitRef}
    (succeeds : (generate library top options).error = none)
    : ∃ hierarchy,
        Hierarchy.analyze library top = .ok hierarchy
        ∧ ∀ netlist ∈ hierarchy.netlists,
            netlist.circuit.customBody options.dialect = none
            → ∃ definition ∈ (generate library top options).emitted,
                definition.form = netlist.form options.clockMode
                ∧ SettlesReads hierarchy options netlist (generate library top options).warnings
                    definition.architecture := by
  obtain ⟨hierarchy, run, analyzed, outcome_eq, valid, -⟩ :=
    generate_valid built.wellFormed succeeds
  obtain ⟨issued, attributed⟩ := generate_reports built.wellFormed analyzed succeeds
  rw [outcome_eq] at issued attributed ⊢
  refine ⟨hierarchy, analyzed, ?_⟩
  intro netlist member generated
  have among : netlist.form options.clockMode ∈ run.emitted.map Emitted.form := by
    have written := List.mem_map_of_mem (f := fun netlist => netlist.form options.clockMode) member
    rw [← valid.circuits] at written
    exact List.mem_of_mem_filter written
  obtain ⟨definition, listed, form_eq⟩ := List.mem_map.mp among
  obtain ⟨realizable, formed⟩ := attributed definition listed netlist member form_eq generated
  exact
    ⟨definition, listed, form_eq,
      settlesReads_of_formed built.wellFormed analyzed member realizable issued formed⟩

/-- The outcome of a run in the library that steps build, next to the analysis of the design. -/
def analyzedRun? [Machine] (steps : List BuildStep) (top : CircuitRef) (options : Options)
    : Option (Library × Hierarchy × Outcome) := do
  let (library, hierarchy) ← Hierarchy.analyzeBuilt? steps top
  return (library, hierarchy, generate library top options)

theorem analyzedRun?_eq_some [Machine] {steps : List BuildStep} {top : CircuitRef}
    {outcome : Outcome}
    (found : analyzedRun? steps top options = some (library, hierarchy, outcome))
    : library.Built
      ∧ Hierarchy.analyze library top = .ok hierarchy
      ∧ outcome = generate library top options := by
  simp only [analyzedRun?, bind, Option.bind_eq_some_iff] at found
  obtain ⟨⟨_, _⟩, made, same⟩ := found
  obtain ⟨built, analyzed⟩ := Hierarchy.built_of_analyzeBuilt? made
  obtain ⟨rfl, rfl, rfl⟩ : _ = library ∧ _ = hierarchy ∧ _ = outcome := by
    simpa [pure] using same
  exact ⟨built, analyzed, rfl⟩

/-- An output pin on a net that an input pin drives half of, and one behind an inverter of nothing.
-/
def undrivenSteps : List BuildStep :=
  [
    .circuit "Main",
    .wire 0 2,
    .wire 0 1,
    .pin 0 .input "a" 1,
    .pin 0 .output "q" 2,
    .primitive 0 .not .empty,
    .pin 0 .output "r" 1,
    .connectBits 0 0 0 [some (⟨0, 0⟩, 0)],
    .connect 0 1 0 ⟨0, 0⟩,
    .connect 0 2 0 ⟨0, 1⟩,
    .connect 0 3 0 ⟨0, 1⟩
  ]

/-- One bit is told of with its net, and another one with the gate that should drive it. -/
theorem undriven_settlesReads
    : ∃ library hierarchy outcome,
        analyzedRun? undrivenSteps ⟨0, 0, "Main"⟩ registerOptions
          = some (library, hierarchy, outcome)
        ∧ outcome.warnings
          = [
              "Net s_LOGISIM_BUS_0 in circuit \"Main\" is read but never driven on bit(s) 1.",
              "Main: NOT Gate #2 has no connected inputs, its output is left undriven."
            ]
        ∧ ∀ netlist ∈ hierarchy.netlists,
            netlist.circuit.customBody registerOptions.dialect = none
            → ∃ definition ∈ outcome.emitted,
                definition.form = netlist.form registerOptions.clockMode
                ∧ SettlesReads hierarchy registerOptions netlist outcome.warnings
                    definition.architecture := by
  have evaluated
      : (analyzedRun? undrivenSteps ⟨0, 0, "Main"⟩ registerOptions).map (fun result =>
            (result.2.2.error, result.2.2.warnings))
        = some
            (none,
              [
                "Net s_LOGISIM_BUS_0 in circuit \"Main\" is read but never driven on bit(s) 1.",
                "Main: NOT Gate #2 has no connected inputs, its output is left undriven."
              ]) := by
    decide +kernel
  obtain ⟨⟨library, hierarchy, outcome⟩, found, values⟩ := Option.map_eq_some_iff.mp evaluated
  obtain ⟨succeeds, warnings⟩ := Prod.mk.inj values
  obtain ⟨built, analyzed, rfl⟩ := analyzedRun?_eq_some found
  obtain ⟨again, same, settled⟩ := generate_settlesReads built succeeds
  obtain rfl : hierarchy = again := Except.ok.inj (analyzed.symm.trans same)
  exact ⟨_, hierarchy, _, found, warnings, settled⟩

-----------------------------------------------------------------------------------------
-- Silent bits
-----------------------------------------------------------------------------------------

/-- What an architecture assigns to, and whatever the ports of its instances are bound to. -/
def attached (architecture : Architecture) : List Expr :=
  architecture.statements.flatMap Statement.targets
    ++ (architecture.statements.filterMap Statement.instance?).flatMap (fun inst =>
        inst.ports.flatMap (fun map => map.actual.exprs))

/-- A run succeeds without hand-written bodies and without any warning, and yet nothing that it
writes is attached to a bit that a circuit reads.
-/
def ReadsSilently (hierarchy : Hierarchy) (dialect : Dialect) (outcome : Outcome) (net : Nat)
    (sink : Endpoint)
    : Prop :=
  outcome.error = none
  ∧ outcome.warnings = []
  ∧ (∀ netlist ∈ hierarchy.netlists, netlist.circuit.customBody dialect = none)
  ∧ ∃ netlist ∈ hierarchy.netlists,
      ∃ reader ∈ netlist.parts,
        Netlist.Lands reader .reader net sink
        ∧ ∀ definition ∈ outcome.emitted,
            ¬ netlist.DrivesPoint (attached definition.architecture) ⟨net, sink.netBit⟩

instance (hierarchy : Hierarchy) (dialect : Dialect) (outcome : Outcome) (net : Nat)
    (sink : Endpoint)
    : Decidable (ReadsSilently hierarchy dialect outcome net sink) :=
  inferInstanceAs (Decidable (_ ∧ _ ∧ _ ∧ _))

/-- A gate of two bits with an input that is connected at one of them only. -/
def halfConnectedSteps : List BuildStep :=
  [
    .circuit "Main",
    .wire 0 1,
    .wire 0 2,
    .pin 0 .input "a" 1,
    .primitive 0 .and (.ofList [("width", .number 2)]),
    .pin 0 .output "q" 2,
    .connect 0 0 0 ⟨0, 0⟩,
    .connect 0 1 0 ⟨0, 1⟩,
    .connectBits 0 1 1 [some (⟨0, 0⟩, 0), none],
    .connect 0 2 0 ⟨0, 1⟩
  ]

/-- The bit at which the gate lacks an operand is read by the output pin. -/
theorem halfConnected_readsSilently
    : ∃ library hierarchy outcome,
        analyzedRun? halfConnectedSteps ⟨0, 0, "Main"⟩ registerOptions
          = some (library, hierarchy, outcome)
        ∧ ReadsSilently hierarchy registerOptions.dialect outcome 1 ⟨2, 0, 1, 1⟩ := by
  have evaluated
      : (analyzedRun? halfConnectedSteps ⟨0, 0, "Main"⟩ registerOptions).map (fun result =>
            decide (ReadsSilently result.2.1 registerOptions.dialect result.2.2 1 ⟨2, 0, 1, 1⟩))
        = some true := by
    decide +kernel
  obtain ⟨⟨library, hierarchy, outcome⟩, found, silent⟩ := Option.map_eq_some_iff.mp evaluated
  exact ⟨library, hierarchy, outcome, found, of_decide_eq_true silent⟩

/-- A circuit whose inout pin is unconnected, and one that reads the end of its instance. -/
def sharedBubbleSteps : List BuildStep :=
  [
    .circuit "Leaf",
    .pin 0 .inout "x" 1,
    .circuit "Main",
    .wire 1 1,
    .subcircuit 1 ⟨0, 0, "Leaf"⟩,
    .pin 1 .output "q" 1,
    .connect 1 0 0 ⟨1, 0⟩,
    .connect 1 1 0 ⟨1, 0⟩
  ]

/-- The end that belongs to the bubble is read by the output pin. -/
theorem sharedBubble_readsSilently
    : ∃ library hierarchy outcome,
        analyzedRun? sharedBubbleSteps ⟨0, 1, "Main"⟩ registerOptions
          = some (library, hierarchy, outcome)
        ∧ ReadsSilently hierarchy registerOptions.dialect outcome 0 ⟨1, 0, 0, 0⟩ := by
  have evaluated
      : (analyzedRun? sharedBubbleSteps ⟨0, 1, "Main"⟩ registerOptions).map (fun result =>
            decide (ReadsSilently result.2.1 registerOptions.dialect result.2.2 0 ⟨1, 0, 0, 0⟩))
        = some true := by
    decide +kernel
  obtain ⟨⟨library, hierarchy, outcome⟩, found, silent⟩ := Option.map_eq_some_iff.mp evaluated
  exact ⟨library, hierarchy, outcome, found, of_decide_eq_true silent⟩

end SchematicHdl.Generation
