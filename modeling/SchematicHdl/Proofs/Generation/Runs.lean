import SchematicHdl.Proofs.Generation.Sharing

/-! Whole runs. A successful run writes one file for each definition, whatever a circuit
instantiates before the circuit, and the top circuit last.
-/

namespace SchematicHdl.Generation

open Hdl (Architecture Instance Statement)
open Netlist (positions)
open SchematicHdl.Outcome

variable {library : Library} {hierarchy : Hierarchy} {options : Options}

-----------------------------------------------------------------------------------------
-- Paths
-----------------------------------------------------------------------------------------

theorem Backed.directory_plain {earlier : List Emitted} {definition : Emitted}
    (backed : Backed hierarchy options earlier definition)
    : '/' ∉ (Text.foldCase definition.form.directory).toList := by
  cases backed with
  | leaf _ _ resolved => exact (Realization.resolve_resolves resolved).directory_plain
  | circuit =>
      show '/' ∉ (Text.foldCase "circuit").toList
      decide

/-- The names of what is written differ, even in lower case. -/
theorem Valid.names_nodup [Arithmetic] {opens : List Handled} {done : List Netlist} {run : Run}
    (valid : Valid hierarchy options opens done run)
    : (run.emitted.map (fun definition => Text.foldCase definition.form.name)).Nodup := by
  have folded
      : run.handled.map Prod.fst
        = (run.handled.map Prod.snd).map (fun known => Text.foldCase known.key) := by
    rw [List.map_map]
    exact List.map_congr_left valid.folded
  have distinct := valid.distinct
  rw [folded, (valid.known.map _).nodup_iff, List.map_append, List.map_map] at distinct
  exact (List.nodup_append.mp distinct).1

theorem Valid.keys_nodup [Arithmetic] {opens : List Handled} {done : List Netlist} {run : Run}
    (valid : Valid hierarchy options opens done run)
    : (run.emitted.map Emitted.key).Nodup := by
  refine .of_map (fun known => Text.foldCase known.key) ?_
  rw [List.map_map]
  exact valid.names_nodup

/-- The paths of what is written differ, even in lower case. -/
theorem Valid.paths_nodup [Arithmetic] {opens : List Handled} {done : List Netlist} {run : Run}
    (valid : Valid hierarchy options opens done run)
    : (run.files.map (fun file => Text.foldCase file.path)).Nodup := by
  have paths
      : run.files.map (fun file => Text.foldCase file.path)
        = run.emitted.map (fun definition =>
            Text.foldCase (filePath options.dialect definition.form)) := by
    refine List.forall₂_eq_eq_eq ▸ ?_
    rw [List.forall₂_map_left_iff, List.forall₂_map_right_iff]
    exact valid.files.flip.imp fun _ _ written => by rw [written.path_eq]
  have plain (definition : Emitted) (listed : definition ∈ run.emitted)
      : '/' ∉ (Text.foldCase definition.form.directory).toList := by
    obtain ⟨before, after, split⟩ := List.append_of_mem listed
    exact (valid.linked.backed split).directory_plain
  have distinct := valid.names_nodup
  rw [paths]
  rw [List.Nodup, List.pairwise_map] at distinct ⊢
  refine distinct.imp_of_mem fun memberA memberB differ same => differ ?_
  exact foldCase_name_of_filePath (plain _ memberA) (plain _ memberB) same

-----------------------------------------------------------------------------------------
-- Runs from the top circuit
-----------------------------------------------------------------------------------------

/-- The instance is what the part becomes, and its definition is among the earlier ones. -/
def Serves (hierarchy : Hierarchy) (options : Options) (netlist : Netlist)
    (earlier : List Emitted) (part : Part) (inst : Instance)
    : Prop :=
  ∃ realization label notes notes',
    Realization.resolve hierarchy options.clockMode options.dialect part.component
      = .ok realization
    ∧ Succeeds
        ((Placement.mk netlist part label options.clockMode).instantiate realization.form) notes
        inst notes'
    ∧ ∃ definition ∈ earlier, definition.key = realization.form.key

/-- What is known of everything that a successful run writes. -/
structure Shared [Arithmetic] (library : Library) (hierarchy : Hierarchy) (options : Options)
    (top : CircuitRef) (outcome : Outcome)
    : Prop where
  files : List.Forall₂ (Written options.dialect) outcome.emitted outcome.files
  paths : (outcome.files.map (fun file => Text.foldCase file.path)).Nodup
  definitions : (outcome.emitted.map Emitted.key).Nodup
  /-- The netlists are those of the circuits that can be reached, one for each. -/
  reachable
    : ∀ position,
        position ∈ positions hierarchy.netlists
        ↔ Relation.ReflTransGen (fun outer inner => inner ∈ library.below outer) top.position
            position
  distinct : (positions hierarchy.netlists).Nodup
  /-- The circuits are written once each, in the order of their netlists. -/
  circuits
    : (outcome.emitted.map Emitted.form).filter Form.isCircuit
      = hierarchy.netlists.map (fun netlist => netlist.form options.clockMode)
  top_last
    : ∃ netlist ∈ hierarchy.netlists,
        netlist.circuit.position = top.position
        ∧ outcome.emitted.getLast?.map Emitted.form = some (netlist.form options.clockMode)
        ∧ outcome.files.getLast?.map OutputFile.path
          = some (filePath options.dialect (netlist.form options.clockMode))
  components
    : ∀ netlist ∈ hierarchy.netlists,
        netlist.parts.map Part.component
          = (library.circuitAt netlist.circuit.position).components
  /-- A generated body has one instance for each part that is instantiated. -/
  bodies
    : ∀ earlier definition later,
        outcome.emitted = earlier ++ definition :: later
        → ∀ netlist ∈ hierarchy.netlists,
            definition.form = netlist.form options.clockMode
            → netlist.circuit.customBody options.dialect = none
            → ∃ placed,
                placed.Perm (netlist.parts.filter Part.isInstantiated)
                ∧ List.Forall₂ (Serves hierarchy options netlist earlier) placed
                    (definition.architecture.statements.filterMap Statement.instance?)

/-- The instances of a body that is formed serve the parts, with what was written before. -/
theorem Backed.serves (sound : hierarchy.Sound library) {earlier : List Emitted}
    {definition : Emitted} (backed : Backed hierarchy options earlier definition)
    {netlist : Netlist} (member : netlist ∈ hierarchy.netlists)
    (form_eq : definition.form = netlist.form options.clockMode)
    (generated : netlist.circuit.customBody options.dialect = none)
    : ∃ placed,
        placed.Perm (netlist.parts.filter Part.isInstantiated)
        ∧ List.Forall₂ (Serves hierarchy options netlist earlier) placed
            (definition.architecture.statements.filterMap Statement.instance?) := by
  have origin : definition.form.origin = (netlist.form options.clockMode).origin :=
    congrArg Form.origin form_eq
  cases backed with
  | leaf _ _ resolved _ leaf =>
      exact absurd origin ((Realization.resolve_resolves resolved).origin_ne leaf netlist)
  | @circuit found body _ _ there ends supplied =>
      obtain rfl := sound.eq_of_origin there member origin
      cases ends with
      | custom custom => simp [generated] at custom
      | structural _ formed =>
          obtain ⟨openWires, formed⟩ := structuralArchitecture_formed sound there formed
          obtain ⟨placed, perm, realizes⟩ := formed.realizes
          refine ⟨placed, perm, forall₂_imp_mem realizes fun part listed inst _ realized => ?_⟩
          obtain ⟨held, instantiated⟩ := List.mem_filter.mp (perm.mem_iff.mp listed)
          obtain ⟨realization, resolved, -, ⟨label, notes, notes', made, -⟩, -⟩ := realized
          obtain ⟨again, same, definition, written, key_eq⟩ := supplied part held instantiated
          obtain rfl : realization = again := Except.ok.inj (resolved.symm.trans same)
          exact ⟨_, _, _, _, resolved, made, definition, written, key_eq⟩

theorem Valid.start [Arithmetic] : Valid hierarchy options [] [] .start where
  folded := nofun
  distinct := List.nodup_nil
  known := .nil
  files := .nil
  circuits := rfl
  within := List.nil_subset _
  linked := .nil

/-- A successful run, step by step. -/
theorem generateM_succeeds [Machine] {top : CircuitRef} {run : Run}
    (h : Succeeds (generateM library top options) .start () run)
    : ∃ hierarchy netlist,
        Hierarchy.analyze library top = .ok hierarchy
        ∧ Netlist.ofCircuit? hierarchy.netlists top.position = some netlist
        ∧ netlist.isRealizable = true
        ∧ Emits options.dialect (netlist.form options.clockMode) netlist.name
            (circuitArchitecture hierarchy options hierarchy.netlists.length netlist)
            { Run.start with warnings := hierarchy.warnings } run := by
  simp only [generateM, succeeds_bind, succeeds_ofExcept] at h
  obtain ⟨hierarchy, _, ⟨analyzed, rfl⟩, netlist, _, ⟨found, rfl⟩, h⟩ := h
  simp only [emitTop, succeeds_bind] at h
  obtain ⟨_, warned, warnings, h⟩ := h
  obtain rfl : warned = { Run.start with warnings := hierarchy.warnings } := by
    have located : Run.start.located = id := rfl
    rw [warnings_succeeds warnings, located, List.map_id]
    rfl
  split at h
  · next realizable =>
      exact
        ⟨hierarchy, _, analyzed, Hierarchy.netlistOf_eq_ok.mp found, realizable,
          emitDefinition_emits h⟩
  · exact absurd h not_succeeds_throw

theorem generate_succeeds [Machine] {top : CircuitRef}
    (h : (generate library top options).error = none)
    : ∃ run,
        Succeeds (generateM library top options) .start () run
        ∧ generate library top options = ⟨none, run.warnings, run.files, run.emitted⟩ := by
  unfold generate at h ⊢
  split at h
  · next run ended => exact ⟨run, ended, rfl⟩
  · cases h

/-- What is emitted at the start is what is written last. -/
theorem Emits.last [Arithmetic] {form : Form} {label : String} {architecture : RunM Architecture}
    {warned run : Run} (same : Run.start.SameRecords warned)
    (emits : Emits options.dialect form label architecture warned run)
    : run.emitted.getLast?.map Emitted.form = some form
      ∧ run.files.getLast?.map OutputFile.path = some (filePath options.dialect form) := by
  cases emits with
  | again found =>
      rw [same.handled] at found
      cases found
  | fresh => simp [Run.closed]

/-- A successful run leaves a valid record of all netlists, with the top circuit last. -/
theorem generate_valid [Machine] (wellFormed : library.WellFormed) {top : CircuitRef}
    (succeeds : (generate library top options).error = none)
    : ∃ hierarchy run,
        Hierarchy.analyze library top = .ok hierarchy
        ∧ generate library top options = ⟨none, run.warnings, run.files, run.emitted⟩
        ∧ Valid hierarchy options [] hierarchy.netlists run
        ∧ ∃ netlist ∈ hierarchy.netlists,
            netlist.circuit.position = top.position
            ∧ run.emitted.getLast?.map Emitted.form = some (netlist.form options.clockMode)
            ∧ run.files.getLast?.map OutputFile.path
              = some (filePath options.dialect (netlist.form options.clockMode)) := by
  obtain ⟨run, ran, outcome_eq⟩ := generate_succeeds succeeds
  obtain ⟨hierarchy, netlist, analyzed, found, -, emits⟩ := generateM_succeeds ran
  have same : Run.start.SameRecords { Run.start with warnings := hierarchy.warnings } :=
    ⟨rfl, rfl, rfl⟩
  have sound := Hierarchy.sound_of_analyze wellFormed analyzed
  obtain ⟨distinct, visits⟩ := Hierarchy.analyze_visits wellFormed analyzed
  have first := visits.childrenFirst (.nil library.below)
  obtain ⟨member, there⟩ := Netlist.ofCircuit?_mem found
  obtain ⟨before, after, split⟩ := List.append_of_mem member
  obtain ⟨done, advances, -⟩ :=
    emits_circuit sound (Valid.start.congr same) member (by simp) emits
      fun _ _ opened formed =>
        circuitArchitecture_advances sound first split
          (fun key waiting =>
            ⟨netlist, List.mem_cons_self, List.mem_singleton.mp waiting⟩)
          opened formed
  have valid := advances.valid
  rw [there] at advances
  obtain rfl : done = hierarchy.netlists :=
    Netlist.eq_of_positions distinct valid.within (advances.visits.unique visits)
  exact ⟨hierarchy, run, analyzed, outcome_eq, valid, netlist, member, there, emits.last same⟩

/-- A successful run writes each definition once, what a circuit instantiates before the circuit,
and the top circuit last.
-/
theorem generate_shares [Machine] (built : library.Built) {top : CircuitRef}
    (succeeds : (generate library top options).error = none)
    : ∃ hierarchy,
        Hierarchy.analyze library top = .ok hierarchy
        ∧ Shared library hierarchy options top (generate library top options) := by
  obtain ⟨hierarchy, run, analyzed, outcome_eq, valid, last⟩ :=
    generate_valid built.wellFormed succeeds
  have sound := Hierarchy.sound_of_analyze built.wellFormed analyzed
  obtain ⟨distinct, visits⟩ := Hierarchy.analyze_visits built.wellFormed analyzed
  refine ⟨hierarchy, analyzed, ?_⟩
  rw [outcome_eq]
  exact
    {
      files := valid.files,
      paths := valid.paths_nodup,
      definitions := valid.keys_nodup,
      reachable := fun position => visits.mem_iff_reachable,
      distinct,
      circuits := valid.circuits,
      top_last := last,
      components := fun netlist member => by
        have known := sound.netlists netlist member
        rw [known.components_eq, ← known.circuit_eq],
      bodies := fun earlier definition later split netlist member form_eq generated =>
        (valid.linked.backed split).serves sound member form_eq generated
    }

/-- The library that steps build, with the outcome of a run in it. -/
def generateBuilt? [Machine] (steps : List BuildStep) (top : CircuitRef) (options : Options)
    : Option (Library × Outcome) := do
  let (_, library) ← ((steps.forM BuildStep.perform).run (.empty 0)).toOption
  return (library, generate library top options)

theorem generateBuilt?_of_perform [Machine] {steps : List BuildStep} {top : CircuitRef}
    (performed : (steps.forM BuildStep.perform).run (.empty 0) = .ok ((), library))
    : generateBuilt? steps top options = some (library, generate library top options) := by
  rw [generateBuilt?, performed]
  rfl

/-- The register is written before the circuit that instantiates it, and the top circuit last. -/
theorem register_shares
    : ∃ library outcome hierarchy,
        generateBuilt? registerSteps ⟨0, 1, "Main"⟩ registerOptions = some (library, outcome)
        ∧ Hierarchy.analyze library ⟨0, 1, "Main"⟩ = .ok hierarchy
        ∧ Shared library hierarchy registerOptions ⟨0, 1, "Main"⟩ outcome
        ∧ outcome.files.map OutputFile.path
          = ["memory/Register_bit.vhd", "circuit/Leaf.vhd", "circuit/Main.vhd"] := by
  have generated
      : (generateBuilt? registerSteps ⟨0, 1, "Main"⟩ registerOptions).map
          (fun result => (result.2.error, result.2.files.map OutputFile.path))
        = some (none, ["memory/Register_bit.vhd", "circuit/Leaf.vhd", "circuit/Main.vhd"]) := by
    decide +kernel
  obtain ⟨⟨library, outcome⟩, found, values⟩ := Option.map_eq_some_iff.mp generated
  obtain ⟨succeeds, paths⟩ := Prod.mk.inj values
  have built := found
  simp only [generateBuilt?, bind, Option.bind_eq_some_iff, toOption_eq_some] at built
  obtain ⟨⟨_, _⟩, performed, same⟩ := built
  obtain ⟨rfl, rfl⟩ := Prod.mk.inj (Option.some.inj same)
  obtain ⟨hierarchy, analyzed, shared⟩ :=
    generate_shares (Library.built_of_steps performed) succeeds
  exact ⟨_, _, hierarchy, found, analyzed, shared, paths⟩

end SchematicHdl.Generation
