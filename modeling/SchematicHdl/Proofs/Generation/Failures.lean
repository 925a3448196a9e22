import SchematicHdl.Proofs.Generation.PortClashes

/-! Why a run fails. A run that fails has come to a definition whose key is taken or that declares
something of no bits, to a component that cannot be expressed, or to the architecture of a circuit
in which two claimants are called alike; unless its design is refused before anything is generated.
-/

namespace SchematicHdl.Generation

open Hdl (Architecture)
open Netlist (positions)
open SchematicHdl.Outcome

-----------------------------------------------------------------------------------------
-- Definitions
-----------------------------------------------------------------------------------------

/-- A definition comes up while its key is taken by another one. -/
inductive Taken (dialect : Dialect) (form : Form) (run : Run) : GenerationError → Prop
  | first {first} (taken : run.handled.lookup (Text.foldCase form.name) = some first)
    (differs : first ≠ form.key)
    : Taken dialect form run (collision dialect form first)

variable {dialect : Dialect} {form : Form} {label : String} {run : Run} {cause : GenerationError}

theorem Taken.scope_eq {name scope what other : String}
    (taken : Taken dialect form run (.identifierCollision name scope what other))
    : scope = dialect.displayName ++ " library" := by
  generalize same : GenerationError.identifierCollision name scope what other = cause at taken
  cases taken with
  | first => exact (GenerationError.identifierCollision.inj same).2.1

theorem markHandled_fails (fails : Fails (markHandled dialect form.name form.origin) run cause)
    : Taken dialect form run cause := by
  rw [Fails, markHandled_run] at fails
  split at fails
  next first taken =>
    split at fails
    · cases fails
    next differs =>
      obtain rfl := Except.error.inj fails
      exact .first taken differs
  next => cases fails

/-- A level fails where the action on it does. -/
theorem withLevel_fails {α : Type} {good : α → Prop} {action : RunM α}
    (inner : Returns good action) (fails : Fails (withLevel label action) run cause)
    : Fails action { run with levels := label :: run.levels } cause := by
  have returns := inner (label :: run.levels) { run with levels := label :: run.levels } rfl
  rcases ran : action.run { run with levels := label :: run.levels } with ⟨outcome, middle⟩
  have left : middle.levels = label :: run.levels := by
    rw [Leads, ran] at returns
    cases outcome with
    | ok => exact returns.2
    | error => exact returns.2
  rw [Fails, withLevel_run ran left] at fails
  rw [Fails, ran]
  exact fails

/-- A definition is not emitted if its key is taken or its architecture is not formed, or if
something in it is declared of no bits.
-/
theorem emitDefinition_failing [Arithmetic] {architecture : RunM Architecture}
    (inner : Returns Writable architecture)
    (fails : Fails (emitDefinition dialect form label architecture) run cause)
    : Taken dialect form run cause
      ∨ run.handled.lookup (Text.foldCase form.name) = none
        ∧ Fails architecture (run.opened form label) cause
      ∨ cause = .overflow .subtract := by
  rcases fails_bind.mp fails with marking | ⟨isNew, _, marked, fails⟩
  · exact .inl (markHandled_fails marking)
  rcases markHandled_succeeds marked with ⟨rfl, -, -⟩ | ⟨rfl, rfl, new⟩
  · exact absurd fails not_fails_pure
  refine .inr ?_
  rcases fails_bind.mp fails with forming | ⟨body, middle, formed, fails⟩
  · exact .inl ⟨new, withLevel_fails inner forming⟩
  · -- what is formed can be written
    have writable : Writable body := ((returns_withLevel inner) _ _ rfl).of_succeeds formed |>.1
    rcases fails_bind.mp fails with rendering | ⟨_, _, _, recording⟩
    · have found := Hdl.DesignUnit.render_error? dialect (Emitted.mk form body).unit
      rw [fails_ofExcept.mp rendering] at found
      exact .inr (cause_of_writable writable found.symm)
    · exact absurd recording nofun

-----------------------------------------------------------------------------------------
-- Circuits
-----------------------------------------------------------------------------------------

variable {library : Library} {hierarchy : Hierarchy} {options : Options} {netlist : Netlist}

/-- Why the architecture of a circuit is not formed in a run: the key of a definition is taken, a
definition declares something of no bits, a component cannot be expressed, or two claimants in the
circuit or inside it are called alike.
-/
inductive Blocked [Arithmetic] (hierarchy : Hierarchy) (options : Options) (bound : Nat)
    (netlist : Netlist)
    (run : Run)
    : GenerationError → Prop
  | definition {form last cause}
    (comes : ComesTo hierarchy options form last bound netlist run)
    (taken : Taken options.dialect form last cause)
    : Blocked hierarchy options bound netlist run cause
  | component {component}
    : Blocked hierarchy options bound netlist run
        (Realization.unsupported component options.dialect)
  | bitless : Blocked hierarchy options bound netlist run (.overflow .subtract)
  | names {target last openWires cause} (member : target ∈ hierarchy.netlists)
    (comes : ComesToBody hierarchy options target last bound netlist run)
    (generated : target.circuit.customBody options.dialect = none)
    (clash : Clash target.name (claimants hierarchy options target [] openWires) cause)
    : Blocked hierarchy options bound netlist run cause

/-- A circuit is blocked where a circuit is that it instantiates. -/
theorem Blocked.outward [Arithmetic] {bound position : Nat} {child : Netlist}
    {before after : List Part}
    {part : Part} {middle : Run} {realization : Realization}
    (split : netlist.parts = before ++ part :: after)
    (emitted : Succeeds (before.forM (emitPart hierarchy options bound)) run ⟨⟩ middle)
    (placed : isPlaced part = true)
    (resolved
      : Realization.resolve hierarchy options.clockMode options.dialect part.component
        = .ok realization)
    (definition : realization.definition = .circuit child)
    (listed : positionOf? hierarchy child = some position)
    (new : middle.handled.lookup (Text.foldCase realization.form.name) = none)
    (inner
      : Blocked hierarchy options position child
          (middle.opened realization.form (levelLabel part.component)) cause)
    : Blocked hierarchy options bound netlist run cause := by
  cases inner with
  | definition comes taken =>
      exact
        .definition (.inside split emitted placed resolved definition listed new comes) taken
  | component => exact .component
  | bitless => exact .bitless
  | names member comes generated clash =>
      have enters := Enters.opened split emitted placed resolved definition listed new
      exact .names member (.inside enters comes) generated clash

/-- A body is not formed if it cannot be drafted. -/
theorem structuralArchitecture_failing
    (fails : Fails (structuralArchitecture hierarchy options netlist) run cause)
    : (draftArchitecture hierarchy options netlist).run ⟨[], .empty, run.labelCounts, .empty⟩
      = .error cause := by
  rcases fails_bind.mp fails with getting | ⟨_, _, got, fails⟩
  · exact absurd getting nofun
  obtain ⟨rfl, rfl⟩ := succeeds_get.mp got
  rcases fails_bind.mp fails with drafting | ⟨_, _, _, fails⟩
  · exact fails_ofExcept.mp drafting
  · -- what follows only issues warnings
    rcases fails_bind.mp fails with counting | ⟨_, _, _, fails⟩
    · exact absurd counting nofun
    rcases fails_bind.mp fails with warning | ⟨_, _, _, ending⟩
    · exact absurd warning (not_fails_of_succeeds (warnings_run _ _))
    · exact absurd ending not_fails_pure

section Split

variable (sound : hierarchy.Sound library)
  (first : ChildrenFirst library.below (positions hierarchy.netlists)) {bound : Nat}
  {before after : List Netlist} (split : hierarchy.netlists = before ++ netlist :: after)
  (room : before.length ≤ bound)
include sound first split room

/-- A part whose definition is not emitted blocks the circuit, given that the circuits before it are
only blocked for such causes.
-/
theorem emitPart_blocked [Arithmetic] {earlier later : List Part} {part : Part} {middle : Run}
    (parts : netlist.parts = earlier ++ part :: later)
    (emitted : Succeeds (earlier.forM (emitPart hierarchy options bound)) run ⟨⟩ middle)
    (inner
      : ∀ child outside between run,
          before = outside ++ child :: between
          → Fails (circuitArchitecture hierarchy options outside.length child) run cause
          → Blocked hierarchy options outside.length child run cause)
    (fails : Fails (emitPart hierarchy options bound part) middle cause)
    : Blocked hierarchy options bound netlist run cause := by
  have held : part ∈ netlist.parts := by simp [parts]
  have analyzed : netlist ∈ hierarchy.netlists := by simp [split]
  cases placed : isPlaced part with
  | false =>
      rw [emitPart_of_unplaced placed] at fails
      exact absurd fails not_fails_pure
  | true =>
      cases resolved
          : Realization.resolve hierarchy options.clockMode options.dialect part.component with
      | error refusal =>
          rw [emitPart_of_error placed resolved] at fails
          obtain rfl := fails_throw.mp fails
          obtain rfl := resolve_refuses (sound.part analyzed held).1 placed _ _ _ resolved
          exact .component
      | ok realization =>
          cases inlined : realization.isInlined with
          | true =>
              rw [emitPart_of_inlined placed resolved inlined] at fails
              exact absurd fails not_fails_pure
          | false =>
              have supplies :=
                emitPart_supplies sound first split room held placed resolved inlined
              have comes : ComesTo hierarchy options realization.form middle bound netlist run :=
                .here parts emitted placed resolved inlined rfl
              generalize emitPart hierarchy options bound part = emission at supplies fails
              cases supplies with
              | leaf _ writable =>
                  rcases emitDefinition_failing (returns_pure writable) fails with
                    taken | ⟨-, body⟩ | rfl
                  · exact .definition comes taken
                  · exact absurd body not_fails_pure
                  · exact .bitless
              | @circuit child outside between definition earlierChild listed =>
                  have childSplit
                      : hierarchy.netlists = outside ++ child :: (between ++ netlist :: after) := by
                    simp [split, earlierChild]
                  have returns
                      : Returns Writable
                          (circuitArchitecture hierarchy options outside.length child) :=
                    returns_circuitArchitecture sound first childSplit (Nat.le_refl _)
                  rcases emitDefinition_failing returns fails with taken | ⟨new, body⟩ | rfl
                  · exact .definition comes taken
                  · exact
                      .outward parts emitted placed resolved definition listed new
                        (inner _ _ _ _ earlierChild body)
                  · exact .bitless

/-- The architecture of a circuit is not formed for these causes only, by induction on the bound on
the circuits that are entered.
-/
theorem circuitArchitecture_blocked [Arithmetic]
    (fails : Fails (circuitArchitecture hierarchy options bound netlist) run cause)
    : Blocked hierarchy options bound netlist run cause := by
  induction bound using Nat.strongRecOn generalizing before after netlist run with
  | ind bound ih =>
      rw [circuitArchitecture_eq] at fails
      rcases fails_bind.mp fails with emitting | ⟨_, middle, emitted, fails⟩
      · obtain ⟨earlier, part, later, reached, parts, succeeds, here⟩ := fails_forM emitting
        refine emitPart_blocked sound first split room parts succeeds ?_ here
        intro child outside between run earlierChild inner
        have childSplit
            : hierarchy.netlists = outside ++ child :: (between ++ netlist :: after) := by
          simp [split, earlierChild]
        have lower : outside.length < bound := by
          simp [earlierChild] at room
          omega
        exact ih _ lower childSplit (Nat.le_refl _) inner
      · rcases fails_bind.mp fails with resetting | ⟨_, _, reset, fails⟩
        · exact absurd resetting nofun
        obtain rfl := succeeds_modify.mp reset
        have analyzed : netlist ∈ hierarchy.netlists := by simp [split]
        cases generated : netlist.circuit.customBody options.dialect with
        | some text =>
            rw [generated] at fails
            exact absurd fails not_fails_pure
        | none =>
            rw [generated] at fails
            obtain ⟨openWires, stops⟩ :=
              (draftArchitecture_ends sound analyzed []).failsBy cause
                (structuralArchitecture_failing fails)
            cases stops with
            | component held placed refused =>
                obtain rfl := resolve_refuses (sound.part analyzed held).1 placed _ _ _ refused
                exact .component
            | names clash => exact .names analyzed (.here emitted) generated clash

end Split

-----------------------------------------------------------------------------------------
-- Whole runs
-----------------------------------------------------------------------------------------

/-- Why a run fails. -/
inductive Failing [Machine] (library : Library) (top : CircuitRef) (options : Options)
    : GenerationError → Prop
  | refused {cause : GenerationError} (refused : Hierarchy.Refused library top.position cause)
    : Failing library top options cause
  | component {what attributes}
    : Failing library top options (.unsupportedComponent what attributes options.dialect)
  | bitless : Failing library top options (.overflow .subtract)
  | definition {form last cause} (meets : Meets library top options form last)
    (taken : Taken options.dialect form last cause)
    : Failing library top options cause
  | names {hierarchy : Hierarchy} {target last openWires cause}
    (analyzed : Hierarchy.analyze library top = .ok hierarchy)
    (member : target ∈ hierarchy.netlists)
    (meets : MeetsBody library top options target last)
    (generated : target.circuit.customBody options.dialect = none)
    (clash : Clash target.name (claimants hierarchy options target [] openWires) cause)
    : Failing library top options cause

theorem fails_of_generate [Machine] {top : CircuitRef}
    (failed : (generate library top options).error = some cause)
    : Fails (generateM library top options) .start cause := by
  unfold generate at failed
  split at failed
  · cases failed
  next ran =>
    obtain rfl := Option.some.inj failed
    exact congrArg Prod.fst ran

/-- A run on a library that is closed under what it refers to fails for these causes only. -/
theorem generate_failing [Machine] (grounded : Hierarchy.Grounded library) {top : CircuitRef}
    (known : library.Knows top) (failed : (generate library top options).error = some cause)
    : Failing library top options cause := by
  rcases fails_bind.mp (fails_of_generate failed) with refusing | ⟨hierarchy, _, accepted, fails⟩
  · exact .refused (Hierarchy.analyze_refused grounded known (fails_ofExcept.mp refusing))
  obtain ⟨analyzed, rfl⟩ := succeeds_ofExcept.mp accepted
  have visits := (Hierarchy.analyze_visits grounded.wellFormed analyzed).2
  have reached : top.position ∈ positions hierarchy.netlists :=
    visits.targets_subset List.mem_cons_self
  obtain ⟨netlist, inside⟩ := Option.isSome_iff_exists.mp (Netlist.ofCircuit?_isSome.mpr reached)
  have found := Hierarchy.netlistOf_eq_ok.mpr inside
  rw [found, keeping_ofExcept_ok_bind, emitTop] at fails
  rcases fails_bind.mp fails with warning | ⟨_, _, warned, fails⟩
  · exact absurd warning (not_fails_of_succeeds (warnings_run _ _))
  obtain rfl := warnings_succeeds warned
  have located : hierarchy.warnings.map Run.start.located = hierarchy.warnings := by
    rw [show Run.start.located = id from rfl, List.map_id]
  rw [located] at fails
  split at fails
  next realizable =>
    obtain ⟨sound, first, before, after, split, room⟩ :=
      top_split grounded.wellFormed analyzed found
    have returns
        : Returns Writable
            (circuitArchitecture hierarchy options hierarchy.netlists.length netlist) :=
      returns_circuitArchitecture sound first split room
    rcases emitDefinition_failing returns fails with ⟨taken, -⟩ | ⟨-, fails⟩ | rfl
    · -- nothing is handled before the top circuit
      cases taken
    · cases circuitArchitecture_blocked sound first split room fails with
      | definition comes taken => exact .definition (.below analyzed found realizable comes) taken
      | component => exact .component
      | bitless => exact .bitless
      | names member comes generated clash =>
          exact .names analyzed member (.below analyzed found realizable comes) generated clash
    · exact .bitless
  next =>
    obtain rfl := fails_throw.mp fails
    exact .component

end SchematicHdl.Generation
