import SchematicHdl.Proofs.Generation.Runs

/-! Warnings of runs. No warning is withdrawn, and every generated circuit that is written goes back
to a stretch of the run that formed it, with the warnings of that stretch among those of the run.
-/

namespace SchematicHdl.Generation

open Hdl (Architecture)
open SchematicHdl.Outcome

/-- The message is among the warnings, behind the path of the levels that were open. -/
def Tells (warnings : List String) (message : String) : Prop :=
  ∃ run : Run, run.located message ∈ warnings

/-- What is warned of before the first level is opened has no path. -/
theorem tells_of_mem {warnings : List String} {message : String} (issued : message ∈ warnings)
    : Tells warnings message :=
  ⟨.start, issued⟩

variable {hierarchy : Hierarchy} {options : Options}

/-- The architecture is formed for the circuit at some point of a run with the given warnings. -/
def FormedWith (hierarchy : Hierarchy) (options : Options) (warnings : List String)
    (netlist : Netlist) (architecture : Architecture)
    : Prop :=
  ∃ before after,
    Succeeds (structuralArchitecture hierarchy options netlist) before architecture after
    ∧ after.warnings ⊆ warnings

/-- Where a definition is that of a generated circuit, it was formed for the circuit. -/
def Attributed (hierarchy : Hierarchy) (options : Options) (warnings : List String)
    (definition : Emitted)
    : Prop :=
  ∀ netlist ∈ hierarchy.netlists,
    definition.form = netlist.form options.clockMode
    → netlist.circuit.customBody options.dialect = none
    → netlist.isRealizable = true
      ∧ FormedWith hierarchy options warnings netlist definition.architecture

theorem Attributed.mono {warnings more : List String} {definition : Emitted}
    (attributed : Attributed hierarchy options warnings definition) (within : warnings ⊆ more)
    : Attributed hierarchy options more definition := by
  intro netlist member form_eq generated
  obtain ⟨realizable, before, after, formed, issued⟩ := attributed netlist member form_eq generated
  exact ⟨realizable, before, after, formed, List.Subset.trans issued within⟩

-----------------------------------------------------------------------------------------
-- Stretches of a run
-----------------------------------------------------------------------------------------

/-- A stretch of a run withdraws no warning, and what it writes was formed in it. -/
structure Run.Reports (hierarchy : Hierarchy) (options : Options) (run run' : Run) : Prop where
  warnings : run.warnings ⊆ run'.warnings
  emitted
    : ∀ definition ∈ run'.emitted,
        definition ∈ run.emitted ∨ Attributed hierarchy options run'.warnings definition

namespace Run.Reports

variable {run middle run' : Run}

theorem refl (run : Run) : run.Reports hierarchy options run :=
  ⟨List.Subset.refl _, fun _ listed => .inl listed⟩

theorem trans (first : run.Reports hierarchy options middle)
    (second : middle.Reports hierarchy options run')
    : run.Reports hierarchy options run' where
  warnings := List.Subset.trans first.warnings second.warnings
  emitted := by
    intro definition listed
    rcases second.emitted definition listed with earlier | later
    · rcases first.emitted definition earlier with before | here
      · exact .inl before
      · exact .inr (here.mono second.warnings)
    · exact .inr later

end Run.Reports

/-- An architecture that is formed or taken as it is leaves what is written alone. -/
theorem Ends.reports {netlist : Netlist} {run run' : Run} {body : Architecture}
    (ends : Ends hierarchy options netlist run body run')
    : run.Reports hierarchy options run' := by
  cases ends with
  | custom => exact .refl run
  | structural _ formed =>
      obtain ⟨draft, -, rfl⟩ := structuralArchitecture_succeeds formed
      exact ⟨List.subset_append_left _ _, fun _ listed => .inl listed⟩

/-- What is emitted is attributed once its architecture is. -/
theorem Emits.reports [Arithmetic] {form : Form} {label : String} {architecture : RunM Architecture}
    {run run' : Run} (emits : Emits options.dialect form label architecture run run')
    (inner
      : ∀ before body after,
          Succeeds architecture before body after
          → before.Reports hierarchy options after
            ∧ Attributed hierarchy options after.warnings ⟨form, body⟩)
    : run.Reports hierarchy options run' := by
  cases emits with
  | again => exact .refl run
  | @fresh body middle _ _ _ formed =>
      obtain ⟨reports, attributed⟩ := inner _ _ _ formed
      refine ⟨reports.warnings, fun definition listed => ?_⟩
      rcases List.mem_append.mp listed with earlier | last
      · exact reports.emitted definition earlier
      · obtain rfl := List.mem_singleton.mp last
        exact .inr attributed

section Circuits

variable {library : Library} (sound : hierarchy.Sound library)
include sound

/-- A circuit that can be generated is attributed once its architecture is formed. -/
theorem attributed_of_formed {child : Netlist} (member : child ∈ hierarchy.netlists)
    (realizable : child.isRealizable = true) {warnings : List String} {body : Architecture}
    (formed
      : child.circuit.customBody options.dialect = none
        → FormedWith hierarchy options warnings child body)
    : Attributed hierarchy options warnings ⟨child.form options.clockMode, body⟩ := by
  intro netlist there form_eq generated
  obtain rfl := sound.eq_of_origin member there (congrArg Form.origin form_eq)
  exact ⟨realizable, formed generated⟩

theorem EmitsPart.reports [Arithmetic] {bound : Nat} {part : Part} {run run' : Run}
    (emits : EmitsPart hierarchy options bound part run run')
    (inner
      : ∀ child ∈ hierarchy.netlists,
          ∀ position < bound,
            ∀ before body after,
              Succeeds (circuitArchitecture hierarchy options position child) before body after
              → before.Reports hierarchy options after
                ∧ (child.circuit.customBody options.dialect = none
                  → FormedWith hierarchy options after.warnings child body))
    : run.Reports hierarchy options run' := by
  cases emits with
  | unplaced | inlined => exact .refl run
  | leaf resolved _ leaf emits =>
      apply emits.reports
      intro before body after formed
      obtain ⟨rfl, rfl⟩ := succeeds_pure.1 formed
      refine ⟨.refl before, fun netlist _ form_eq _ => ?_⟩
      have origin := congrArg Form.origin form_eq
      exact absurd origin ((Realization.resolve_resolves resolved).origin_ne leaf netlist)
  | circuit resolved definition lower emits =>
      obtain ⟨rfl, realizable, target, -, there⟩ :=
        (Realization.resolve_resolves resolved).of_circuit definition
      have member := (Netlist.ofCircuit?_mem there).1
      apply emits.reports
      intro before body after formed
      obtain ⟨reports, attributed⟩ := inner _ member _ lower before body after formed
      exact ⟨reports, attributed_of_formed sound member realizable attributed⟩

/-- What is emitted for a circuit is attributed, by induction on the bound on the circuits that are
entered.
-/
theorem circuitArchitecture_reports [Arithmetic] {bound : Nat} {netlist : Netlist}
    (member : netlist ∈ hierarchy.netlists) {run run' : Run} {body : Architecture}
    (formed : Succeeds (circuitArchitecture hierarchy options bound netlist) run body run')
    : run.Reports hierarchy options run'
      ∧ (netlist.circuit.customBody options.dialect = none
        → FormedWith hierarchy options run'.warnings netlist body) := by
  induction bound using Nat.strongRecOn generalizing netlist run run' body with
  | ind bound ih =>
      obtain ⟨middle, chained, ends⟩ := circuitArchitecture_emits formed
      have parts : run.Reports hierarchy options middle := by
        refine chained.keeps (P := run.Reports hierarchy options) ?_ (.refl run)
        intro part _ before after emits sofar
        apply sofar.trans
        apply emits.reports sound
        intro child there position lower before body after formed
        exact ih position lower there formed
      have reset : middle.Reports hierarchy options { middle with labelCounts := [] } :=
        ⟨List.Subset.refl _, fun _ listed => .inl listed⟩
      refine ⟨(parts.trans reset).trans ends.reports, fun generated => ?_⟩
      cases ends with
      | custom custom => simp [generated] at custom
      | structural _ formed => exact ⟨_, _, formed, List.Subset.refl _⟩

end Circuits

-----------------------------------------------------------------------------------------
-- Whole runs
-----------------------------------------------------------------------------------------

/-- A successful run issues the warnings of the analysis, and all that it writes is attributed. -/
theorem generate_reports [Machine] {library : Library} (wellFormed : library.WellFormed)
    {top : CircuitRef}
    (analyzed : Hierarchy.analyze library top = .ok hierarchy)
    (succeeds : (generate library top options).error = none)
    : hierarchy.warnings ⊆ (generate library top options).warnings
      ∧ ∀ definition ∈ (generate library top options).emitted,
          Attributed hierarchy options (generate library top options).warnings definition := by
  obtain ⟨run, ran, outcome_eq⟩ := generate_succeeds succeeds
  obtain ⟨other, netlist, again, found, realizable, emits⟩ := generateM_succeeds ran
  obtain rfl := Except.ok.inj (again.symm.trans analyzed)
  have sound := Hierarchy.sound_of_analyze wellFormed analyzed
  have member := (Netlist.ofCircuit?_mem found).1
  have reports
      : Run.Reports other options { Run.start with warnings := other.warnings } run := by
    apply emits.reports
    intro before body after formed
    obtain ⟨reports, attributed⟩ := circuitArchitecture_reports sound member formed
    exact ⟨reports, attributed_of_formed sound member realizable attributed⟩
  rw [outcome_eq]
  refine ⟨reports.warnings, fun definition listed => ?_⟩
  exact (reports.emitted definition listed).resolve_left nofun

end SchematicHdl.Generation
