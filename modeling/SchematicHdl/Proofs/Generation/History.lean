import SchematicHdl.DesignFile.Build
import SchematicHdl.Proofs.Generation.Emission

/-! What the architecture of a circuit owes to the run around it. The run emits what the circuit
instantiates first, which leaves the open levels as they were and withdraws no warning. After that
the counts of made up labels are reset, so the architecture and its own warnings are formed in the
same way wherever in a run the circuit comes up; only the path in front of the warnings differs.
-/

namespace SchematicHdl.Generation

open Hdl (Architecture)
open SchematicHdl.Outcome

-----------------------------------------------------------------------------------------
-- Runs that go on
-----------------------------------------------------------------------------------------

/-- A stretch of a run: the levels that are open at its end are those at its start, and the warnings
so far are kept.
-/
structure Run.Continues (run run' : Run) : Prop where
  levels : run'.levels = run.levels
  warnings : run.warnings <+: run'.warnings

namespace Run.Continues

variable {run middle run' : Run}

theorem refl (run : Run) : run.Continues run := ⟨rfl, List.prefix_refl _⟩

theorem trans (first : run.Continues middle) (second : middle.Continues run')
    : run.Continues run' :=
  ⟨second.levels.trans first.levels, first.warnings.trans second.warnings⟩

end Run.Continues

variable {hierarchy : Hierarchy} {options : Options} {netlist : Netlist} {bound : Nat}
  {run run' : Run} {body : Architecture}

/-- A definition is formed one level below, and that level is left again. -/
theorem emitDefinition_continues [Arithmetic] {dialect : Dialect} {form : Form} {label : String}
    {architecture : RunM Architecture}
    (inner
      : ∀ run body run', Succeeds architecture run body run' → run.Continues run')
    (h : Succeeds (emitDefinition dialect form label architecture) run () run')
    : run.Continues run' := by
  simp only [emitDefinition, succeeds_bind] at h
  obtain ⟨isNew, _, marked, h⟩ := h
  rcases markHandled_succeeds marked with ⟨rfl, rfl, -⟩ | ⟨rfl, rfl, -⟩
  · obtain ⟨-, rfl⟩ := succeeds_pure.1 h
    exact .refl _
  · simp only [if_true, succeeds_bind, succeeds_ofExcept, recordFile, recordEmitted,
      succeeds_modify] at h
    obtain ⟨body, _, formed, text, _, ⟨-, rfl⟩, _, _, rfl, rfl⟩ := h
    obtain ⟨middle, levels, ran, same⟩ := withLevel_succeeds formed
    have continues := inner _ _ _ ran
    have left := formed.symm.trans (withLevel_run ran continues.levels)
    obtain rfl := (Prod.mk.inj left).2
    exact ⟨rfl, continues.warnings⟩

theorem structuralArchitecture_continues
    (h : Succeeds (structuralArchitecture hierarchy options netlist) run body run')
    : run.Continues run' := by
  obtain ⟨draft, -, rfl⟩ := structuralArchitecture_succeeds h
  exact ⟨rfl, List.prefix_append _ _⟩

section Parts

variable [Arithmetic]
  (inner
    : ∀ child,
        ∀ position < bound,
          ∀ run body run',
            Succeeds (circuitArchitecture hierarchy options position child) run body run'
            → run.Continues run')
include inner

/-- What a part needs is emitted on the levels that are open, given that circuits are. -/
theorem emitPart_continues {part : Part}
    (h : Succeeds (emitPart hierarchy options bound part) run () run')
    : run.Continues run' := by
  have taken (architecture : Architecture)
      (run : Run) (body : Architecture) (run' : Run)
      (formed : Succeeds (pure architecture : RunM Architecture) run body run')
      : run.Continues run' := by
    obtain ⟨-, rfl⟩ := succeeds_pure.1 formed
    exact .refl run
  unfold emitPart at h
  split at h
  · simp only [succeeds_bind, succeeds_ofExcept] at h
    obtain ⟨realization, _, ⟨-, rfl⟩, h⟩ := h
    split at h
    · obtain ⟨-, rfl⟩ := succeeds_pure.1 h
      exact .refl _
    · exact emitDefinition_continues (taken _) h
    · exact emitDefinition_continues (taken _) h
    · split at h
      · split at h
        next lower => exact emitDefinition_continues (inner _ _ lower) h
        next => exact absurd h not_succeeds_throw
      · exact absurd h not_succeeds_throw
  · obtain ⟨-, rfl⟩ := succeeds_pure.1 h
    exact .refl _

theorem emitParts_continues {parts : List Part}
    (h : Succeeds (parts.forM (emitPart hierarchy options bound)) run ⟨⟩ run')
    : run.Continues run' :=
  (forM_succeeds.1 h).keeps (P := run.Continues)
    (fun _ _ _ _ step sofar => sofar.trans (emitPart_continues inner step)) (.refl run)

end Parts

/-- The whole of a circuit is formed on the levels that are open, by induction on the bound on the
circuits that are entered.
-/
theorem circuitArchitecture_continues [Arithmetic]
    (h : Succeeds (circuitArchitecture hierarchy options bound netlist) run body run')
    : run.Continues run' := by
  induction bound using Nat.strongRecOn generalizing netlist run body run' with
  | ind bound ih =>
      rw [circuitArchitecture_eq] at h
      simp only [succeeds_bind, resetLabels, succeeds_modify] at h
      obtain ⟨_, middle, emitted, _, _, rfl, formed⟩ := h
      have parts : run.Continues middle :=
        emitParts_continues (fun _ _ lower _ _ _ => ih _ lower) emitted
      have reset : middle.Continues { middle with labelCounts := [] } :=
        ⟨rfl, List.prefix_refl _⟩
      refine (parts.trans reset).trans ?_
      split at formed
      · obtain ⟨-, rfl⟩ := succeeds_pure.1 formed
        exact .refl _
      · exact structuralArchitecture_continues formed

-----------------------------------------------------------------------------------------
-- What a circuit adds to a run
-----------------------------------------------------------------------------------------

/-- The run emits what the circuit instantiates, and then it issues the warnings of the circuit
itself, each behind the path of the levels that were open before; so many labels are made up for it.
-/
inductive AddsOwn [Arithmetic] (hierarchy : Hierarchy) (options : Options) (bound : Nat)
    (netlist : Netlist)
    (messages : List String) (counts : List (String × Nat)) (run : Run)
    : Run → Prop
  | after {middle}
    (emitted : Succeeds (netlist.parts.forM (emitPart hierarchy options bound)) run ⟨⟩ middle)
    (continues : run.Continues middle)
    : AddsOwn hierarchy options bound netlist messages counts run
        {
          middle with
            labelCounts := counts,
            warnings := middle.warnings ++ messages.map run.located
        }

theorem Run.located_eq {run other : Run} (same : other.levels = run.levels)
    : other.located = run.located := by
  funext message
  rw [located, located, path, path, same]

/-- A generated architecture is drafted from the netlist alone, whatever the run. -/
theorem circuitArchitecture_addsOwn [Arithmetic]
    (generated : netlist.circuit.customBody options.dialect = none)
    (h : Succeeds (circuitArchitecture hierarchy options bound netlist) run body run')
    : ∃ draft,
        (draftArchitecture hierarchy options netlist).run ⟨[], .empty, [], .empty⟩
          = .ok (body, draft)
        ∧ AddsOwn hierarchy options bound netlist draft.notes.warnings draft.labelCounts run
            run' := by
  rw [circuitArchitecture_eq, generated] at h
  simp only [succeeds_bind, resetLabels, succeeds_modify] at h
  obtain ⟨_, middle, emitted, _, _, rfl, formed⟩ := h
  obtain ⟨draft, drafted, rfl⟩ := structuralArchitecture_succeeds formed
  have continues : run.Continues middle :=
    emitParts_continues (fun _ _ _ _ _ _ => circuitArchitecture_continues) emitted
  have located : Run.located { middle with labelCounts := [] } = run.located :=
    Run.located_eq continues.levels
  have adds
      : AddsOwn hierarchy options bound netlist draft.notes.warnings draft.labelCounts run
          {
            middle with
              labelCounts := draft.labelCounts,
              warnings := middle.warnings ++ draft.notes.warnings.map run.located
          } :=
    .after emitted continues
  rw [located]
  exact ⟨draft, drafted, adds⟩

/-- The architecture of a circuit does not depend on the history of a run. Formed from any two
states of runs for one hierarchy, whatever was handled, counted, warned of or written before and
whatever levels are open, a generated architecture is the same. Either run adds the same warnings
for the circuit itself, up to the path in front of them, to what comes from the circuits in it.
-/
theorem circuitArchitecture_forgetsHistory [Arithmetic]
    (generated : netlist.circuit.customBody options.dialect = none) {otherBound : Nat}
    {other other' : Run} {otherBody : Architecture}
    (formed : Succeeds (circuitArchitecture hierarchy options bound netlist) run body run')
    (again
      : Succeeds (circuitArchitecture hierarchy options otherBound netlist) other otherBody other')
    : body = otherBody
      ∧ ∃ messages counts,
        AddsOwn hierarchy options bound netlist messages counts run run'
        ∧ AddsOwn hierarchy options otherBound netlist messages counts other other' := by
  obtain ⟨draft, drafted, adds⟩ := circuitArchitecture_addsOwn generated formed
  obtain ⟨same, draftedAgain, addsAgain⟩ := circuitArchitecture_addsOwn generated again
  obtain ⟨rfl, rfl⟩ := Prod.mk.inj (Except.ok.inj (drafted.symm.trans draftedAgain))
  exact ⟨rfl, _, _, adds, addsAgain⟩

/-- A circuit with a component without a label and an output pin that nothing is connected to. -/
def danglingFile : DesignFile where
  top := "main"
  circuits := [
    {
      name := "main",
      wires := [1, 1, 1],
      joins := [],
      splices := [],
      components := [
        ⟨"input_pin", some "a", .empty, [some (.wire 0)], none, none, some 1, none⟩,
        ⟨"decoder", none, .empty, [some (.wire 1), some (.wire 2), some (.wire 0)], none, none,
          none, none⟩,
        ⟨"output_pin", some "q", .empty, [none], none, none, some 1, none⟩
      ],
      customBodies := []
    }
  ]
  entities := []

/-- A run that has come to a circuit inside others, with a decoder handled and labels made up. -/
def lateRun : Run where
  handled := [("decoder_2", ⟨"Decoder_2", "Decoder"⟩)]
  levels := ["inner", "outer"]
  labelCounts := [("PLEXERS", 4)]
  warnings := ["earlier"]
  files := []
  emitted := []

/-- The warning of the circuit itself. -/
def danglingWarning : String :=
  "Found an unconnected output pin, tied the pin to ground! (Output Pin \"q\")"

/-- At the start of a run and late in one, the architecture is the same, and so is the warning but
for the path.
-/
theorem dangling_forgetsHistory
    : ∃ library top hierarchy netlist body first last messages counts,
        danglingFile.elaborate = .ok (library, top)
        ∧ Hierarchy.analyze library top = .ok hierarchy
        ∧ netlist ∈ hierarchy.netlists
        ∧ Succeeds (circuitArchitecture hierarchy registerOptions 0 netlist) .start body first
        ∧ Succeeds (circuitArchitecture hierarchy registerOptions 0 netlist) lateRun body last
        ∧ first.warnings = [danglingWarning]
        ∧ last.warnings = ["earlier", "outer/inner: " ++ danglingWarning]
        ∧ AddsOwn hierarchy registerOptions 0 netlist messages counts .start first
        ∧ AddsOwn hierarchy registerOptions 0 netlist messages counts lateRun last := by
  have outcome
      : (do
          let design ← danglingFile.elaborate.toOption
          let hierarchy ← (Hierarchy.analyze design.1 design.2).toOption
          let netlist ← hierarchy.netlists.head?
          let architecture := circuitArchitecture hierarchy registerOptions 0 netlist
          let first ← (architecture.run .start).1.toOption
          let last ← (architecture.run lateRun).1.toOption
          return (netlist.circuit.customBody .vhdl, (architecture.run .start).2.warnings,
            (architecture.run lateRun).2.warnings))
        = some (none, [danglingWarning], ["earlier", "outer/inner: " ++ danglingWarning]) := by
    decide +kernel
  simp only [bind, Option.bind_eq_some_iff, toOption_eq_some] at outcome
  obtain ⟨⟨library, top⟩, elaborated, hierarchy, analyzed, netlist, head, body, first, otherBody,
    last, values⟩ := outcome
  simp only [pure, Option.some.injEq, Prod.mk.injEq] at values
  obtain ⟨generated, early, late⟩ := values
  have formed := succeeds_of_fst first
  have again := succeeds_of_fst last
  obtain ⟨rfl, messages, counts, adds, addsAgain⟩ :=
    circuitArchitecture_forgetsHistory generated formed again
  exact
    ⟨library, top, hierarchy, netlist, body, _, _, messages, counts, elaborated, analyzed,
      List.mem_of_head? head, formed, again, early, late, adds, addsAgain⟩

end SchematicHdl.Generation
