import SchematicHdl.Proofs.Generation.Architecture
import SchematicHdl.Proofs.Generation.Definitions

/-! Emitting single definitions. A definition is handled once: its key is claimed, its architecture
is formed, and then its file is written. In between, its key belongs to a definition that is open.
-/

namespace SchematicHdl.Generation

open Hdl (Architecture)
open SchematicHdl.Outcome

/-- The run after a key is claimed and one more level is entered. -/
def Run.opened (run : Run) (form : Form) (label : String) : Run :=
  {
    run with
      handled := (Text.foldCase form.name, form.key) :: run.handled,
      levels := label :: run.levels
  }

/-- The run after a definition is written and its level is left. -/
def Run.closed (run : Run) (levels : List String) (file : OutputFile) (definition : Emitted)
    : Run :=
  {
    run with
      levels,
      files := run.files ++ [file],
      emitted := run.emitted ++ [definition]
  }

/-- Two runs have handled and written the same definitions. -/
structure Run.SameRecords (run other : Run) : Prop where
  handled : other.handled = run.handled
  files : other.files = run.files
  emitted : other.emitted = run.emitted

theorem Run.SameRecords.refl (run : Run) : run.SameRecords run := ⟨rfl, rfl, rfl⟩

theorem Run.SameRecords.labelCounts (run : Run) (labelCounts : List (String × Nat))
    : run.SameRecords { run with labelCounts } :=
  ⟨rfl, rfl, rfl⟩

theorem Run.SameRecords.trans {a b c : Run} (first : a.SameRecords b) (second : b.SameRecords c)
    : a.SameRecords c :=
  ⟨second.handled.trans first.handled, second.files.trans first.files,
    second.emitted.trans first.emitted⟩

/-- A definition is emitted, or it was before. -/
inductive Emits [Arithmetic] (dialect : Dialect) (form : Form) (label : String)
    (architecture : RunM Architecture) (run : Run)
    : Run → Prop
  | again (found : run.handled.lookup (Text.foldCase form.name) = some form.key)
    : Emits dialect form label architecture run run
  | fresh {body middle levels text}
    (new : run.handled.lookup (Text.foldCase form.name) = none)
    (formed : Succeeds architecture (run.opened form label) body middle)
    (rendered : (Emitted.mk form body).unit.render dialect = .ok text)
    : Emits dialect form label architecture run
        (middle.closed levels ⟨filePath dialect form, text⟩ ⟨form, body⟩)

variable {dialect : Dialect} {form : Form} {label : String} {architecture : RunM Architecture}
  {run run' : Run}

theorem markHandled_succeeds {key origin : String} {isNew : Bool}
    (h : Succeeds (markHandled dialect key origin) run isNew run')
    : (isNew = false
          ∧ run' = run
          ∧ run.handled.lookup (Text.foldCase key) = some ⟨key, origin⟩)
        ∨ (isNew = true
          ∧ run' = { run with handled := (Text.foldCase key, ⟨key, origin⟩) :: run.handled }
          ∧ run.handled.lookup (Text.foldCase key) = none) := by
  simp only [markHandled, succeeds_bind, succeeds_get] at h
  obtain ⟨_, _, ⟨rfl, rfl⟩, h⟩ := h
  split at h
  · next first found =>
      split at h
      · next same =>
          obtain ⟨rfl, rfl⟩ := succeeds_pure.1 h
          exact .inl ⟨rfl, rfl, same ▸ found⟩
      · exact absurd h not_succeeds_throw
  · next none =>
      simp only [succeeds_bind, succeeds_set, succeeds_pure] at h
      obtain ⟨_, _, rfl, rfl, rfl⟩ := h
      exact .inr ⟨rfl, rfl, none⟩

/-- A key is claimed unless it stands for something already: for the same definition, which is not
new, or for another one, which is a collision.
-/
theorem markHandled_run (dialect : Dialect) (key origin : String) (run : Run)
    : (markHandled dialect key origin).run run
      = match run.handled.lookup (Text.foldCase key) with
        | some first =>
            if first = ⟨key, origin⟩ then (.ok false, run)
            else
              (.error
                (.identifierCollision key (dialect.displayName ++ " library") first.origin origin),
                run)
        | none =>
            (.ok true,
              { run with handled := (Text.foldCase key, ⟨key, origin⟩) :: run.handled }) := by
  have got : (get : RunM Run).run run = (.ok run, run) := rfl
  rw [markHandled, run_keeping_bind, got]
  dsimp only
  cases run.handled.lookup (Text.foldCase key) with
  | none => rfl
  | some first =>
      dsimp only
      by_cases same : first = ⟨key, origin⟩
      · rw [if_pos same, if_pos same]
        rfl
      · rw [if_neg same, if_neg same]
        rfl

/-- A level is entered before an action and left after it, and the outcome is that of the action. -/
theorem withLevel_run {α : Type} {label top : String} {action : RunM α} {middle : Run}
    {outcome : Except GenerationError α} {levels : List String}
    (ran : action.run { run with levels := label :: run.levels } = (outcome, middle))
    (left : middle.levels = top :: levels)
    : (withLevel label action).run run = (outcome, { middle with levels }) := by
  have entered
      : (pushLevel label).run run = (.ok (), { run with levels := label :: run.levels }) := rfl
  have kept
      : (ExceptT.lift action.run : RunM _).run { run with levels := label :: run.levels }
        = (.ok outcome, middle) := by
    show (fun result => (Except.ok result.1, result.2)) (action.run _) = _
    rw [ran]
  have popped : popLevel.run middle = (.ok (), { middle with levels }) := by
    cases middle
    subst left
    rfl
  rw [withLevel, run_keeping_bind, entered]
  dsimp only
  rw [run_keeping_bind, kept]
  dsimp only
  rw [run_keeping_bind, popped]
  cases outcome <;> rfl

theorem withLevel_succeeds {α : Type} {action : RunM α} {result : α}
    (h : Succeeds (withLevel label action) run result run')
    : ∃ middle levels,
        Succeeds action { run with levels := label :: run.levels } result middle
        ∧ run' = { middle with levels } := by
  simp only [withLevel, pushLevel, popLevel, succeeds_bind, succeeds_modify, succeeds_get,
    succeeds_lift] at h
  obtain ⟨_, _, rfl, outcome, middle, ran, _, left, ⟨_, _, ⟨rfl, rfl⟩, popped⟩, ended⟩ := h
  obtain ⟨rfl, rfl⟩ := succeeds_ofExcept.1 ended
  split at popped
  · exact absurd popped not_succeeds_throw
  · next _ levels _ => exact ⟨middle, levels, ran, (succeeds_modify.1 popped).symm⟩

theorem emitDefinition_emits [Arithmetic]
    (h : Succeeds (emitDefinition dialect form label architecture) run () run')
    : Emits dialect form label architecture run run' := by
  simp only [emitDefinition, succeeds_bind] at h
  obtain ⟨isNew, _, marked, h⟩ := h
  rcases markHandled_succeeds marked with ⟨rfl, rfl, found⟩ | ⟨rfl, rfl, new⟩
  · obtain ⟨-, rfl⟩ := succeeds_pure.1 h
    exact .again found
  · simp only [if_true, succeeds_bind, succeeds_ofExcept, recordFile, recordEmitted,
      succeeds_modify] at h
    obtain ⟨body, _, formed, text, _, ⟨rendered, rfl⟩, _, _, rfl, rfl⟩ := h
    obtain ⟨middle, levels, ran, rfl⟩ := withLevel_succeeds formed
    exact .fresh new ran rendered

variable {hierarchy : Hierarchy} {options : Options} {bound : Nat}

/-- Emits what a circuit instantiates for a part. -/
def emitPart [Arithmetic] (hierarchy : Hierarchy) (options : Options) (bound : Nat) (part : Part)
    : RunM Unit := do
  if isPlaced part then
    let realization ←
      MonadExcept.ofExcept
        (Realization.resolve hierarchy options.clockMode options.dialect part.component)
    let emit := emitDefinition options.dialect realization.form (levelLabel part.component)
    match realization.definition with
    | .inlined _ => return
    | .builtIn architecture => emit (return architecture)
    | .external entity => emit (return .raw entity.body)
    | .circuit child =>
        match positionOf? hierarchy child with
        | some position =>
            if _ : position < bound then
              emit (circuitArchitecture hierarchy options position child)
            else
              throw (.internal (.circuitNotAnalyzed child.circuit.name))
        | none => throw (.internal (.circuitNotAnalyzed child.circuit.name))

/-- The architecture of a circuit is formed after what is emitted for its parts, one by one. -/
theorem circuitArchitecture_eq [Arithmetic] (netlist : Netlist)
    : circuitArchitecture hierarchy options bound netlist
      = (do
          netlist.parts.forM (emitPart hierarchy options bound)
          resetLabels
          match netlist.circuit.customBody options.dialect with
          | some text => return .raw text
          | none => structuralArchitecture hierarchy options netlist) := by
  rw [circuitArchitecture]
  rfl

/-- What is emitted for a part. -/
inductive EmitsPart [Arithmetic] (hierarchy : Hierarchy) (options : Options) (bound : Nat)
    (part : Part)
    (run : Run)
    : Run → Prop
  | unplaced (unplaced : isPlaced part = false) : EmitsPart hierarchy options bound part run run
  | inlined {realization}
    (resolved
      : Realization.resolve hierarchy options.clockMode options.dialect part.component
        = .ok realization)
    (inlined : realization.isInlined = true)
    : EmitsPart hierarchy options bound part run run
  | leaf {realization architecture run'}
    (resolved
      : Realization.resolve hierarchy options.clockMode options.dialect part.component
        = .ok realization)
    (instantiated : realization.isInlined = false)
    (leaf : ∀ child, realization.definition ≠ .circuit child)
    (emits
      : Emits options.dialect realization.form (levelLabel part.component) (pure architecture) run
          run')
    : EmitsPart hierarchy options bound part run run'
  | circuit {realization child position run'}
    (resolved
      : Realization.resolve hierarchy options.clockMode options.dialect part.component
        = .ok realization)
    (definition : realization.definition = .circuit child) (lower : position < bound)
    (emits
      : Emits options.dialect realization.form (levelLabel part.component)
          (circuitArchitecture hierarchy options position child) run run')
    : EmitsPart hierarchy options bound part run run'

/-- An architecture is taken as it is written, or formed once everything it uses is emitted. -/
inductive Ends (hierarchy : Hierarchy) (options : Options) (netlist : Netlist) (run : Run)
    : Architecture → Run → Prop
  | custom {text} (custom : netlist.circuit.customBody options.dialect = some text)
    : Ends hierarchy options netlist run (.raw text) run
  | structural {body run'} (generated : netlist.circuit.customBody options.dialect = none)
    (formed : Succeeds (structuralArchitecture hierarchy options netlist) run body run')
    : Ends hierarchy options netlist run body run'

theorem Ends.sameRecords {netlist : Netlist} {body : Architecture}
    (ends : Ends hierarchy options netlist run body run')
    : run.SameRecords run' := by
  cases ends with
  | custom => exact .refl run
  | structural _ formed =>
      obtain ⟨draft, -, rfl⟩ := structuralArchitecture_succeeds formed
      exact ⟨rfl, rfl, rfl⟩

theorem emitPart_emits [Arithmetic] {part : Part} {result : Unit}
    (h : Succeeds (emitPart hierarchy options bound part) run result run')
    : EmitsPart hierarchy options bound part run run' := by
  unfold emitPart at h
  split at h
  · next placed =>
      simp only [succeeds_bind, succeeds_ofExcept] at h
      obtain ⟨realization, _, ⟨resolved, rfl⟩, h⟩ := h
      split at h
      · next type definition =>
          obtain ⟨-, rfl⟩ := succeeds_pure.1 h
          exact .inlined resolved (by simp [Realization.isInlined, definition])
      · next body definition =>
          exact
            .leaf resolved (by simp [Realization.isInlined, definition]) (by simp [definition])
              (emitDefinition_emits h)
      · next entity definition =>
          exact
            .leaf resolved (by simp [Realization.isInlined, definition]) (by simp [definition])
              (emitDefinition_emits h)
      · next child definition =>
          split at h
          · split at h
            · next lower => exact .circuit resolved definition lower (emitDefinition_emits h)
            · exact absurd h not_succeeds_throw
          · exact absurd h not_succeeds_throw
  · next unplaced =>
      obtain ⟨-, rfl⟩ := succeeds_pure.1 h
      exact .unplaced (by simpa using unplaced)

/-- The architecture of a circuit is formed after what is emitted for its parts. -/
theorem circuitArchitecture_emits [Arithmetic] {netlist : Netlist} {architecture : Architecture}
    (h
      : Succeeds (circuitArchitecture hierarchy options bound netlist) run architecture run')
    : ∃ middle,
        Chained (EmitsPart hierarchy options bound) netlist.parts run middle
        ∧ Ends hierarchy options netlist { middle with labelCounts := [] } architecture run' := by
  rw [circuitArchitecture_eq] at h
  simp only [succeeds_bind, resetLabels, succeeds_modify] at h
  obtain ⟨_, middle, chained, _, _, rfl, ended⟩ := h
  refine ⟨middle, (forM_succeeds.1 chained).imp fun part s s' step => emitPart_emits step, ?_⟩
  split at ended
  · next text custom =>
      obtain ⟨rfl, rfl⟩ := succeeds_pure.1 ended
      exact .custom custom
  · next generated => exact .structural generated ended

end SchematicHdl.Generation
