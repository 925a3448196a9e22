import SchematicHdl.Proofs.Generation.Runs
import SchematicHdl.Proofs.Hdl.Writing
import SchematicHdl.Proofs.Hierarchy.Arranging
import SchematicHdl.Proofs.Pairing

/-! Runs for different languages. A design in which nothing is written in an output language comes
to the same definitions and warnings in each of them, as long as the runs analyze it alike; what
differs is the text of the files.
-/

namespace SchematicHdl

/-- The component is described directly in an output language. -/
def Component.isExternal (component : Component) : Bool :=
  match component.kind with
  | .external _ => true
  | _ => false

/-- Nothing in the circuit is written in an output language. -/
structure Circuit.IsNeutral (circuit : Circuit) : Prop where
  generated : ∀ dialect, circuit.customBody dialect = none
  components : ∀ component ∈ circuit.components, component.isExternal = false

instance (circuit : Circuit) : Decidable circuit.IsNeutral :=
  decidable_of_iff
    ((circuit.customBody .vhdl = none ∧ circuit.customBody .verilog = none)
      ∧ ∀ component ∈ circuit.components, component.isExternal = false)
    ⟨fun ⟨⟨vhdl, verilog⟩, components⟩ =>
      ⟨fun dialect => match dialect with | .vhdl => vhdl | .verilog => verilog, components⟩,
      fun neutral => ⟨⟨neutral.generated _, neutral.generated _⟩, neutral.components⟩⟩

/-- Every circuit of a library of neutral circuits is neutral, also those that are missing. -/
theorem Library.circuitAt_isNeutral {library : Library}
    (neutral : ∀ circuit ∈ library.circuits, circuit.IsNeutral) (position : Nat)
    : (library.circuitAt position).IsNeutral := by
  unfold circuitAt circuit?
  cases found : library.circuits[position]? with
  | none => exact ⟨fun _ => rfl, by simp [Circuit.empty]⟩
  | some circuit => exact neutral circuit (List.mem_of_getElem? found)

end SchematicHdl

namespace SchematicHdl.Generation

open Hdl (Architecture)
open Netlist (positions)
open SchematicHdl.Outcome

-----------------------------------------------------------------------------------------
-- Causes
-----------------------------------------------------------------------------------------

/-- Runs for two languages fail in the same way: for the same cause, or for one that only differs in
the language that it names.
-/
inductive Counterpart (left right : Dialect) : GenerationError → GenerationError → Prop
  | same {cause} : Counterpart left right cause cause
  | unsupported {component attributes}
    : Counterpart left right (.unsupportedComponent component attributes left)
        (.unsupportedComponent component attributes right)
  | collision {key first second}
    : Counterpart left right
        (.identifierCollision key (left.displayName ++ " library") first second)
        (.identifierCollision key (right.displayName ++ " library") first second)

variable {left right : Dialect}

/-- A component that is not written in an output language is realized alike in all of them. -/
theorem resolve_paired {hierarchy : Hierarchy} {component : Component} (mode : ClockMode)
    (neutral : component.isExternal = false)
    : Paired (Counterpart left right) Eq (Realization.resolve hierarchy mode left component)
        (Realization.resolve hierarchy mode right component) := by
  have checked {realization : Realization}
      (same : realization.supports left = realization.supports right)
      : Paired (Counterpart left right) Eq
          (if realization.supports left then pure realization
          else throw (Realization.unsupported component left))
          (if realization.supports right then pure realization
          else throw (Realization.unsupported component right)) := by
    rw [same]
    split
    · exact .ok rfl
    · exact .error .unsupported
  unfold Realization.resolve
  cases kind : component.kind with
  | primitive type => exact checked (by cases type <;> rfl)
  | subcircuit target =>
      dsimp only
      cases hierarchy.netlistOf target with
      | ok child => exact checked rfl
      | error cause => exact .error .same
  | external => simp [Component.isExternal, kind] at neutral
  | unknown => exact .error .unsupported
  | pin | clock => exact .error .same

-----------------------------------------------------------------------------------------
-- Architectures
-----------------------------------------------------------------------------------------

section Drafts

variable {hierarchy : Hierarchy} {options : Options} {netlist : Netlist}
  (neutral : ∀ part ∈ netlist.parts, part.component.isExternal = false)
include neutral

theorem placeComponent_agrees {part : Part} (held : part ∈ netlist.parts)
    : Agree (Counterpart left right) Eq
        (placeComponent hierarchy { options with dialect := left } netlist part)
        (placeComponent hierarchy { options with dialect := right } netlist part) := by
  refine agree_bind (agree_ofExcept ?_) fun realization => agree_refl (fun _ => .same) _
  exact resolve_paired options.clockMode (neutral part held)

/-- The language only matters where a component is realized. -/
theorem draftArchitecture_agrees
    : Agree (Counterpart left right) Eq
        (draftArchitecture hierarchy { options with dialect := left } netlist)
        (draftArchitecture hierarchy { options with dialect := right } netlist) := by
  refine agree_bind (agree_refl (fun _ => .same) _) fun _ => ?_
  refine agree_bind (agree_refl (fun _ => .same) _) fun nets => ?_
  refine agree_bind (agree_forM fun part held => ?_) fun _ => agree_refl (fun _ => .same) _
  unfold placePart
  split
  · exact agree_refl (fun _ => .same) _
  · exact agree_refl (fun _ => .same) _
  · exact placeComponent_agrees neutral held
  · exact placeComponent_agrees neutral held

end Drafts

-----------------------------------------------------------------------------------------
-- Steps of a run
-----------------------------------------------------------------------------------------

/-- Two runs differ in the texts of the files at most, and each has written in its own language what
both have emitted.
-/
structure Twins [Arithmetic] (left right : Dialect) (run other : Run) : Prop where
  handled : other.handled = run.handled
  levels : other.levels = run.levels
  labelCounts : other.labelCounts = run.labelCounts
  warnings : other.warnings = run.warnings
  emitted : other.emitted = run.emitted
  files : List.Forall₂ (Written left) run.emitted run.files
  otherFiles : List.Forall₂ (Written right) run.emitted other.files

/-- The steps come to the same result, or fail in the same way, in runs for two languages. -/
abbrev Twinned [Arithmetic] {α : Type} (left right : Dialect) (step other : RunM α) : Prop :=
  Parallel (Counterpart left right) (Twins left right) Eq step other

theorem warn_twinned [Arithmetic] (message : String) : Twinned left right (warn message)
    (warn message) :=
  parallel_modify fun run other twins =>
    { twins with
      warnings := by
        show other.warnings ++ [other.located message] = run.warnings ++ [run.located message]
        simp only [Run.located, Run.path, twins.warnings, twins.levels] }

theorem markHandled_twinned [Arithmetic] (key origin : String)
    : Twinned left right (markHandled left key origin) (markHandled right key origin) := by
  refine parallel_bind parallel_get fun run other twins => ?_
  rw [twins.handled]
  cases run.handled.lookup (Text.foldCase key) with
  | none =>
      refine parallel_bind_eq (parallel_set ?_) fun _ => parallel_pure rfl
      exact { twins with handled := rfl }
  | some first =>
      dsimp only
      split
      · exact parallel_pure rfl
      · exact parallel_throw .collision

theorem withLevel_twinned [Arithmetic] {α : Type} {label : String} {action other : RunM α}
    (twinned : Twinned left right action other)
    : Twinned left right (withLevel label action) (withLevel label other) := by
  refine parallel_bind_eq (parallel_modify fun run other twins => ?_) fun _ => ?_
  · exact { twins with levels := by rw [twins.levels] }
  refine parallel_bind (parallel_lift twinned) fun result counterpart paired => ?_
  refine parallel_bind_eq ?_ fun _ => parallel_ofExcept paired
  refine parallel_bind parallel_get fun run other twins => ?_
  rw [twins.levels]
  cases run.levels with
  | nil => exact parallel_throw .same
  | cons top levels => exact parallel_modify fun _ _ twins => { twins with levels := rfl }

/-- A unit is written in every language or in none. -/
theorem render_paired [Arithmetic] (unit : Hdl.DesignUnit)
    : Paired (Counterpart left right)
        (fun text counterpart =>
          unit.render left = .ok text ∧ unit.render right = .ok counterpart)
        (unit.render left) (unit.render right) := by
  have same : error? (unit.render left) = error? (unit.render right) := by
    rw [Hdl.DesignUnit.render_error?, Hdl.DesignUnit.render_error?]
  cases here : unit.render left with
  | ok text =>
      rw [here] at same
      obtain ⟨counterpart, there⟩ := error?_eq_none.mp same.symm
      rw [there]
      exact .ok ⟨rfl, rfl⟩
  | error cause =>
      rw [here] at same
      rw [error?_eq_some.mp same.symm]
      exact .error .same

theorem emitDefinition_twinned [Arithmetic] {form : Form} {label : String}
    {architecture other : RunM Architecture}
    (twinned : Twinned left right architecture other)
    : Twinned left right (emitDefinition left form label architecture)
        (emitDefinition right form label other) := by
  refine parallel_bind_eq (markHandled_twinned _ _) fun isNew => ?_
  split
  · refine parallel_bind_eq (withLevel_twinned twinned) fun body => ?_
    refine parallel_bind (parallel_ofExcept (render_paired _)) fun text counterpart rendered => ?_
    refine fun run beside twins => ⟨.ok rfl, ?_⟩
    exact
      {
        twins with
          emitted := by
            show beside.emitted ++ [_] = run.emitted ++ [_]
            rw [twins.emitted],
          files := List.rel_append twins.files (.cons ⟨rfl, rendered.1⟩ .nil),
          otherFiles := List.rel_append twins.otherFiles (.cons ⟨rfl, rendered.2⟩ .nil)
      }
  · exact parallel_pure rfl

-----------------------------------------------------------------------------------------
-- Whole runs
-----------------------------------------------------------------------------------------

/-- Nothing in the analyzed circuits is written in an output language. -/
structure Neutral (hierarchy : Hierarchy) : Prop where
  generated
    : ∀ netlist ∈ hierarchy.netlists, ∀ dialect, netlist.circuit.customBody dialect = none
  parts
    : ∀ netlist ∈ hierarchy.netlists, ∀ part ∈ netlist.parts, part.component.isExternal = false

section Hierarchies

variable {hierarchy : Hierarchy} {options : Options} {netlist : Netlist}
  (neutral : Neutral hierarchy)
include neutral

theorem structuralArchitecture_twinned [Arithmetic] (analyzed : netlist ∈ hierarchy.netlists)
    : Twinned left right
        (structuralArchitecture hierarchy { options with dialect := left } netlist)
        (structuralArchitecture hierarchy { options with dialect := right } netlist) := by
  refine parallel_bind parallel_get fun run other twins => ?_
  rw [twins.labelCounts]
  refine
    parallel_ofExcept_bind
      ((draftArchitecture_agrees (neutral.parts netlist analyzed)).paired _) ?_
  rintro ⟨architecture, draft⟩ -
  refine parallel_bind_eq (parallel_modify fun run other twins => ?_) fun _ => ?_
  · exact { twins with labelCounts := rfl }
  refine parallel_bind_eq (parallel_forM fun message _ => warn_twinned message) fun _ => ?_
  exact parallel_pure rfl

/-- What is emitted for a part is the same if what is emitted below it is. -/
theorem emitPart_twinned [Arithmetic] {bound : Nat} {part : Part}
    (analyzed : netlist ∈ hierarchy.netlists)
    (held : part ∈ netlist.parts)
    (inner
      : ∀ position < bound,
          ∀ child ∈ hierarchy.netlists,
            Twinned left right
              (circuitArchitecture hierarchy { options with dialect := left } position child)
              (circuitArchitecture hierarchy { options with dialect := right } position child))
    : Twinned left right (emitPart hierarchy { options with dialect := left } bound part)
        (emitPart hierarchy { options with dialect := right } bound part) := by
  unfold emitPart
  split
  · have plain := neutral.parts netlist analyzed part held
    refine parallel_ofExcept_bind (resolve_paired _ plain) fun realization resolved => ?_
    dsimp only
    cases definition : realization.definition with
    | inlined => exact parallel_pure rfl
    | builtIn body => exact emitDefinition_twinned (parallel_pure rfl)
    | external entity => exact emitDefinition_twinned (parallel_pure rfl)
    | circuit child =>
        obtain ⟨-, -, target, -, found⟩ :=
          (Realization.resolve_resolves resolved).of_circuit definition
        dsimp only
        split
        · split
          next lower =>
            exact emitDefinition_twinned (inner _ lower child (Netlist.ofCircuit?_mem found).1)
          next => exact parallel_throw .same
        · exact parallel_throw .same
  · exact parallel_pure rfl

/-- The architecture of a circuit is formed alike, by induction on the bound on the circuits that
are entered.
-/
theorem circuitArchitecture_twinned [Arithmetic] {bound : Nat}
    (analyzed : netlist ∈ hierarchy.netlists)
    : Twinned left right
        (circuitArchitecture hierarchy { options with dialect := left } bound netlist)
        (circuitArchitecture hierarchy { options with dialect := right } bound netlist) := by
  induction bound using Nat.strongRecOn generalizing netlist with
  | ind bound ih =>
      rw [circuitArchitecture_eq, circuitArchitecture_eq]
      refine parallel_bind_eq (parallel_forM fun part held => ?_) fun _ => ?_
      · exact emitPart_twinned neutral analyzed held fun position lower child there =>
          ih position lower there
      refine parallel_bind_eq (parallel_modify fun run other twins => ?_) fun _ => ?_
      · exact { twins with labelCounts := rfl }
      rw [neutral.generated netlist analyzed left, neutral.generated netlist analyzed right]
      exact structuralArchitecture_twinned neutral analyzed

theorem emitTop_twinned [Arithmetic] (analyzed : netlist ∈ hierarchy.netlists)
    : Twinned left right (emitTop hierarchy { options with dialect := left } netlist)
        (emitTop hierarchy { options with dialect := right } netlist) := by
  refine parallel_bind_eq (parallel_forM fun message _ => warn_twinned message) fun _ => ?_
  split
  · exact emitDefinition_twinned (circuitArchitecture_twinned neutral analyzed)
  · exact parallel_throw .unsupported

end Hierarchies

variable {library : Library} {top : CircuitRef}

/-- Runs that analyze the design alike are twins from the start, where nothing is written. -/
theorem generateM_twinned {first second : Machine}
    (same : first.toArithmetic = second.toArithmetic)
    (alike : @Hierarchy.analyze second library top = @Hierarchy.analyze first library top)
    (options : Options)
    (neutral
      : ∀ hierarchy, @Hierarchy.analyze first library top = .ok hierarchy → Neutral hierarchy)
    : @Twinned first.toArithmetic Unit left right
        (@generateM first library top { options with dialect := left })
        (@generateM second library top { options with dialect := right }) := by
  unfold generateM
  rw [alike, ← same]
  refine parallel_ofExcept_bind (paired_refl (fun _ => .same) _) fun hierarchy analyzed => ?_
  refine parallel_ofExcept_bind (paired_refl (fun _ => .same) _) fun netlist found => ?_
  have listed := (Netlist.ofCircuit?_mem (Hierarchy.netlistOf_eq_ok.mp found)).1
  exact @emitTop_twinned _ _ _ options _ (neutral hierarchy analyzed) first.toArithmetic listed

/-- The outcome tells how the run ends. -/
theorem generate_of_run [Machine] {options : Options} {result : Except GenerationError Unit}
    {run : Run}
    (ran : (generateM library top options).run .start = (result, run))
    : generate library top options = ⟨error? result, run.warnings, run.files, run.emitted⟩ := by
  unfold generate
  rw [show ((generateM library top options).run .start).run = _ from ran]
  cases result <;> rfl

/-- Outcomes of runs for two languages: both are failures of the same kind, or both are successes,
with the same definitions and warnings in the same order. The files hold the texts of the
definitions.
-/
structure Outcome.Twins [Arithmetic] (left right : Dialect) (outcome other : Outcome) : Prop where
  error : Option.Rel (Counterpart left right) outcome.error other.error
  warnings : other.warnings = outcome.warnings
  emitted : other.emitted = outcome.emitted
  files : List.Forall₂ (Written left) outcome.emitted outcome.files
  otherFiles : List.Forall₂ (Written right) outcome.emitted other.files

theorem outcome_twins [Arithmetic] {result counterpart : Except GenerationError Unit}
    {run other : Run} (paired : Paired (Counterpart left right) Eq result counterpart)
    (twins : Twins left right run other)
    : Outcome.Twins left right ⟨error? result, run.warnings, run.files, run.emitted⟩
        ⟨error? counterpart, other.warnings, other.files, other.emitted⟩ := by
  refine ⟨?_, twins.warnings, twins.emitted, twins.files, twins.otherFiles⟩
  cases paired with
  | ok => exact .none
  | error here => exact .some here

/-- The netlists of neutral circuits are neutral. -/
theorem neutral_of_analyze [Machine] (wellFormed : library.WellFormed) {hierarchy : Hierarchy}
    (analyzed : Hierarchy.analyze library top = .ok hierarchy)
    (neutral
      : ∀ position,
          Relation.ReflTransGen (fun outer inner => inner ∈ library.below outer) top.position
              position
          → (library.circuitAt position).IsNeutral)
    : Neutral hierarchy := by
  have sound := Hierarchy.sound_of_analyze wellFormed analyzed
  have visits := (Hierarchy.analyze_visits wellFormed analyzed).2
  have reached (netlist : Netlist) (member : netlist ∈ hierarchy.netlists)
      : netlist.circuit.IsNeutral := by
    rw [(sound.netlists netlist member).circuit_eq]
    exact neutral _ (visits.mem_iff_reachable.mp (List.mem_map_of_mem member))
  refine ⟨fun netlist member => (reached netlist member).generated, ?_⟩
  intro netlist member part held
  refine (reached netlist member).components part.component ?_
  rw [← (sound.netlists netlist member).components_eq]
  exact List.mem_map_of_mem held

/-- The language makes no difference but in the texts of the files, if nothing in the circuits below
the top is written in an output language and both runs of the build analyze the design alike. They
do when no input pins share a point; otherwise it is left to the hash orders of the two runs.
-/
theorem generate_twins {first second : Machine} (same : first.toArithmetic = second.toArithmetic)
    (wellFormed : library.WellFormed)
    (neutral
      : ∀ position,
          Relation.ReflTransGen (fun outer inner => inner ∈ library.below outer) top.position
              position
          → (library.circuitAt position).IsNeutral)
    (left right : Dialect) (options : Options)
    : (@Hierarchy.analyze second library top = @Hierarchy.analyze first library top
        → @Outcome.Twins first.toArithmetic left right
            (@generate first library top { options with dialect := left })
            (@generate second library top { options with dialect := right }))
      ∧ ((∀ hierarchy,
            @Hierarchy.analyze first library top = .ok hierarchy
            → ∀ netlist ∈ hierarchy.netlists, netlist.InputsApart)
        → @Hierarchy.analyze second library top = @Hierarchy.analyze first library top) := by
  refine ⟨fun alike => ?_, Hierarchy.analyze_arranged same⟩
  have start : @Twins first.toArithmetic left right .start .start :=
    @Twins.mk first.toArithmetic _ _ _ _ rfl rfl rfl rfl rfl .nil .nil
  obtain ⟨paired, twins⟩ :=
    generateM_twinned same alike options
      (fun _ analyzed => @neutral_of_analyze _ _ first wellFormed _ analyzed neutral)
      .start .start start
  rcases ran : (@generateM first library top { options with dialect := left }).run .start
    with ⟨result, run⟩
  rcases beside : (@generateM second library top { options with dialect := right }).run .start
    with ⟨counterpart, other⟩
  rw [ran, beside] at paired twins
  rw [@generate_of_run _ _ first _ _ _ ran, @generate_of_run _ _ second _ _ _ beside]
  exact @outcome_twins _ _ first.toArithmetic _ _ _ _ paired twins

/-- A register below the top circuit, in both languages and with different hash orders. -/
theorem register_twins
    : ∃ library vhdl verilog,
        generateBuilt? registerSteps ⟨0, 1, "Main"⟩ { registerOptions with dialect := .vhdl }
          = some (library, vhdl)
        ∧ @generateBuilt? .inOrder registerSteps ⟨0, 1, "Main"⟩
              { registerOptions with dialect := .verilog }
          = some (library, verilog)
        ∧ vhdl.files.map OutputFile.path
          = ["memory/Register_bit.vhd", "circuit/Leaf.vhd", "circuit/Main.vhd"]
        ∧ verilog.files.map OutputFile.path
          = ["memory/Register_bit.v", "circuit/Leaf.v", "circuit/Main.v"]
        ∧ Outcome.Twins .vhdl .verilog vhdl verilog := by
  have built
      : (do
          let built ← ((registerSteps.forM BuildStep.perform).run (.empty 0)).toOption
          let hierarchy ← (Hierarchy.analyze built.2 ⟨0, 1, "Main"⟩).toOption
          return (built.2, hierarchy)).map (fun made : Library × Hierarchy =>
            (made.1.circuits.all (fun circuit => circuit.IsNeutral),
              made.2.netlists.all (fun netlist => netlist.InputsApart),
              (generate made.1 ⟨0, 1, "Main"⟩
                { registerOptions with dialect := .vhdl }).files.map OutputFile.path,
              (@generate .inOrder made.1 ⟨0, 1, "Main"⟩
                { registerOptions with dialect := .verilog }).files.map OutputFile.path))
        = some
            (true, true, ["memory/Register_bit.vhd", "circuit/Leaf.vhd", "circuit/Main.vhd"],
              ["memory/Register_bit.v", "circuit/Leaf.v", "circuit/Main.v"]) := by
    decide +kernel
  obtain ⟨⟨made, visits⟩, found, values⟩ := Option.map_eq_some_iff.mp built
  simp only [bind, Option.bind_eq_some_iff, toOption_eq_some] at found
  obtain ⟨⟨⟨⟩, library⟩, performed, hierarchy, analyzed, same⟩ := found
  obtain ⟨rfl, rfl⟩ := Prod.mk.inj (Option.some.inj same)
  obtain ⟨neutral, values⟩ := Prod.mk.inj values
  obtain ⟨disjoint, paths⟩ := Prod.mk.inj values
  obtain ⟨vhdl, verilog⟩ := Prod.mk.inj paths
  have all : ∀ circuit ∈ library.circuits, circuit.IsNeutral := by simpa using neutral
  have apart (other : Hierarchy) (alike : Hierarchy.analyze library ⟨0, 1, "Main"⟩ = .ok other)
      : ∀ netlist ∈ other.netlists, netlist.InputsApart := by
    obtain rfl := Except.ok.inj (analyzed.symm.trans alike)
    simpa using disjoint
  obtain ⟨twins, alike⟩ :=
    @generate_twins library ⟨0, 1, "Main"⟩ .optimized .inOrder rfl
      (Library.built_of_steps performed).wellFormed
      (fun position _ => library.circuitAt_isNeutral all position) .vhdl .verilog registerOptions
  exact
    ⟨library, _, _, generateBuilt?_of_perform performed,
      @generateBuilt?_of_perform _ _ .inOrder _ _ performed, vhdl, verilog, twins (alike apart)⟩

/-- A circuit between the top and a leaf. Its two input pins are on one wire, which clocks the leaf;
the top feeds them from two clocks.
-/
def sharedPinSteps : List BuildStep :=
  [
    .circuit "Leaf",
    .wire 0 1,
    .pin 0 .input "c" 1,
    .connect 0 0 0 ⟨0, 0⟩,
    .circuit "Middle",
    .wire 1 1,
    .pin 1 .input "ca" 1,
    .connect 1 0 0 ⟨1, 0⟩,
    .pin 1 .input "cb" 1,
    .connect 1 1 0 ⟨1, 0⟩,
    .subcircuit 1 ⟨0, 0, "Leaf"⟩,
    .connect 1 2 0 ⟨1, 0⟩,
    .circuit "Main",
    .wire 2 1,
    .wire 2 1,
    .clock 2 .empty,
    .connect 2 0 0 ⟨2, 0⟩,
    .clock 2 (.ofList [("high_ticks", .number 3)]),
    .connect 2 1 0 ⟨2, 1⟩,
    .subcircuit 2 ⟨0, 1, "Middle"⟩,
    .connect 2 2 0 ⟨2, 0⟩,
    .connect 2 2 1 ⟨2, 1⟩
  ]

/-- The hash orders of the two runs decide which of two clock trees reaches the leaf, so the runs
can come to entities with different ports.
-/
theorem sharedPins_not_twins
    : ∃ library vhdl verilog,
        generateBuilt? sharedPinSteps ⟨0, 2, "Main"⟩ { registerOptions with dialect := .vhdl }
          = some (library, vhdl)
        ∧ @generateBuilt? .inOrder sharedPinSteps ⟨0, 2, "Main"⟩
              { registerOptions with dialect := .verilog }
          = some (library, verilog)
        ∧ (∀ circuit ∈ library.circuits, circuit.IsNeutral)
        ∧ ¬ Outcome.Twins .vhdl .verilog vhdl verilog := by
  have ports
      : ((sharedPinSteps.forM BuildStep.perform).run (.empty 0)).toOption.map (fun built =>
          (built.2.circuits.all (fun circuit => circuit.IsNeutral),
            (generate built.2 ⟨0, 2, "Main"⟩
              { registerOptions with dialect := .vhdl }).emitted.head?.map (fun leaf =>
                leaf.form.inputs.map Port.name),
            (@generate .inOrder built.2 ⟨0, 2, "Main"⟩
              { registerOptions with dialect := .verilog }).emitted.head?.map (fun leaf =>
                leaf.form.inputs.map Port.name)))
        = some (true, some ["LOGISIM_CLOCK_TREE_0", "c"], some ["LOGISIM_CLOCK_TREE_1", "c"]) := by
    decide +kernel
  obtain ⟨⟨⟨⟩, library⟩, performed, values⟩ := Option.map_eq_some_iff.mp ports
  obtain ⟨neutral, values⟩ := Prod.mk.inj values
  obtain ⟨vhdl, verilog⟩ := Prod.mk.inj values
  have performed := toOption_eq_some.mp performed
  refine
    ⟨library, _, _, generateBuilt?_of_perform performed,
      @generateBuilt?_of_perform _ _ .inOrder _ _ performed, by simpa using neutral, ?_⟩
  intro twins
  rw [twins.emitted, vhdl] at verilog
  exact absurd verilog (by decide)

end SchematicHdl.Generation
