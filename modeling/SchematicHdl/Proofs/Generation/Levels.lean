import SchematicHdl.Proofs.Generation.Emission

/-! Levels of the instance hierarchy. The run keeps a stack of the open levels, which `withLevel`
enters and leaves. Here the levels of a run are those in which its steps are written: a script is a
tree of steps, and it is traced with the labels around each step passed down to it, so nothing has
to be left again. A run through the stack does what the trace says, however its levels are nested
and wherever they fail.
-/

namespace SchematicHdl.Generation

open SchematicHdl.Outcome

-----------------------------------------------------------------------------------------
-- Scripts
-----------------------------------------------------------------------------------------

/-- What can be done on a run, step by step. A later step may depend on the results of earlier
ones; it is told of failures too, so it may pass them on, or go on after them.
-/
inductive Script : Type → Type 1 where
  | done {α : Type} (value : α) : Script α
  | fail {α : Type} (cause : GenerationError) : Script α
  | warn {α : Type} (message : String) (next : Script α) : Script α
  | record {α : Type} (file : OutputFile) (next : Script α) : Script α
  | define {α : Type} (definition : Emitted) (next : Script α) : Script α
  /-- Claims a key for a definition. -/
  | claim {α : Type} (key origin : String) (next : Except GenerationError Bool → Script α)
    : Script α
  /-- Reads and changes the counts of the labels. -/
  | count {α β : Type} (use : List (String × Nat) → β × List (String × Nat))
    (next : β → Script α)
    : Script α
  /-- Takes steps one level below. -/
  | level {α β : Type} (label : String) (inner : Script β)
    (next : Except GenerationError β → Script α)
    : Script α

/-- The outcome of an action as its result. -/
def attempt {α : Type} (action : RunM α) : RunM (Except GenerationError α) :=
  ExceptT.lift action.run

/-- Reads and changes the counts of the labels. -/
def countLabels {α : Type} (use : List (String × Nat) → α × List (String × Nat)) : RunM α :=
  modifyGet (fun run =>
    let (result, labelCounts) := use run.labelCounts
    (result, { run with labelCounts }))

namespace Script

/-- Comes to a known outcome. -/
def ofExcept {α : Type} : Except GenerationError α → Script α
  | .ok value => .done value
  | .error cause => .fail cause

/-- The steps, taken on the run. -/
def perform (dialect : Dialect) {α : Type} : Script α → RunM α
  | .done value => pure value
  | .fail cause => throw cause
  | .warn message next => do
      Generation.warn message
      perform dialect next
  | .record file next => do
      recordFile file
      perform dialect next
  | .define definition next => do
      recordEmitted definition
      perform dialect next
  | .claim key origin next => do
      let isNew ← attempt (markHandled dialect key origin)
      perform dialect (next isNew)
  | .count use next => do
      let result ← countLabels use
      perform dialect (next result)
  | .level label inner next => do
      let outcome ← attempt (withLevel label (perform dialect inner))
      perform dialect (next outcome)

end Script

-----------------------------------------------------------------------------------------
-- Traces
-----------------------------------------------------------------------------------------

/-- What a run has on record, apart from the levels. A warning is recorded as it is issued, with the
labels of the levels around the step that issues it, outermost first.
-/
structure Records where
  handled : List (String × Handled)
  labelCounts : List (String × Nat)
  issued : List (List String × String)
  files : List OutputFile
  emitted : List Emitted

/-- What claiming a key comes to, and the handled definitions after it. -/
def claimed (dialect : Dialect) (key origin : String) (handled : List (String × Handled))
    : Except GenerationError Bool × List (String × Handled) :=
  match handled.lookup (Text.foldCase key) with
  | some first =>
      if first = ⟨key, origin⟩ then (.ok false, handled)
      else
        (.error (.identifierCollision key (dialect.displayName ++ " library") first.origin origin),
          handled)
  | none => (.ok true, (Text.foldCase key, ⟨key, origin⟩) :: handled)

/-- What the steps come to below the given labels, and the records after them. -/
def Script.trace (dialect : Dialect) {α : Type}
    : Script α → List String → Records → Except GenerationError α × Records
  | .done value, _, records => (.ok value, records)
  | .fail cause, _, records => (.error cause, records)
  | .warn message next, path, records =>
      trace dialect next path { records with issued := records.issued ++ [(path, message)] }
  | .record file next, path, records =>
      trace dialect next path { records with files := records.files ++ [file] }
  | .define definition next, path, records =>
      trace dialect next path { records with emitted := records.emitted ++ [definition] }
  | .claim key origin next, path, records =>
      let (isNew, handled) := claimed dialect key origin records.handled
      trace dialect (next isNew) path { records with handled }
  | .count use next, path, records =>
      let (result, labelCounts) := use records.labelCounts
      trace dialect (next result) path { records with labelCounts }
  | .level label inner next, path, records =>
      let (outcome, records) := trace dialect inner (path ++ [label]) records
      trace dialect (next outcome) path records

/-- The text of an issued warning: the message alone outside of all levels, and behind the labels of
the levels else.
-/
def storedWarning (issued : List String × String) : String :=
  if issued.1.isEmpty then issued.2 else "/".intercalate issued.1 ++ ": " ++ issued.2

/-- What is on record before any step. -/
def Run.records (run : Run) : Records := ⟨run.handled, run.labelCounts, [], [], []⟩

/-- The run with its records brought up to date. Its levels are the same. -/
def Run.noting (run : Run) (records : Records) : Run :=
  {
    handled := records.handled,
    levels := run.levels,
    labelCounts := records.labelCounts,
    warnings := run.warnings ++ records.issued.map storedWarning,
    files := run.files ++ records.files,
    emitted := run.emitted ++ records.emitted
  }

@[simp] theorem Run.noting_records (run : Run) : run.noting run.records = run := by
  simp [noting, records]

theorem run_attempt {α : Type} {action : RunM α} {run run' : Run}
    {outcome : Except GenerationError α} (ran : action.run run = (outcome, run'))
    : (attempt action).run run = (.ok outcome, run') := by
  show (fun result => (Except.ok result.1, result.2)) (action.run run) = _
  rw [ran]

theorem markHandled_noting (dialect : Dialect) (key origin : String) (run : Run)
    (records : Records)
    : (markHandled dialect key origin).run (run.noting records)
      = ((claimed dialect key origin records.handled).1,
          run.noting
            { records with handled := (claimed dialect key origin records.handled).2 }) := by
  rw [markHandled_run, claimed, Run.noting]
  dsimp only
  cases records.handled.lookup (Text.foldCase key) with
  | none => rfl
  | some first =>
      dsimp only
      split <;> rfl

/-- A warning is stored with the levels that are open when it is issued. -/
theorem warn_noting (message : String) (run : Run) (records : Records)
    : (warn message).run (run.noting records)
      = (.ok (),
          run.noting
            { records with issued := records.issued ++ [(run.levels.reverse, message)] }) := by
  have located
      : (run.noting records).located message = storedWarning (run.levels.reverse, message) := by
    simp [Run.located, Run.noting, Run.path, storedWarning]
  have noted
      : (warn message).run (run.noting records)
        = (.ok (),
            {
              run.noting records with
                warnings :=
                  (run.noting records).warnings ++ [(run.noting records).located message]
            }) := rfl
  rw [noted, located]
  simp [Run.noting]

theorem recordFile_noting (file : OutputFile) (run : Run) (records : Records)
    : (recordFile file).run (run.noting records)
      = (.ok (), run.noting { records with files := records.files ++ [file] }) := by
  have noted
      : (recordFile file).run (run.noting records)
        = (.ok (), { run.noting records with files := (run.noting records).files ++ [file] }) :=
    rfl
  rw [noted]
  simp [Run.noting]

theorem recordEmitted_noting (definition : Emitted) (run : Run) (records : Records)
    : (recordEmitted definition).run (run.noting records)
      = (.ok (), run.noting { records with emitted := records.emitted ++ [definition] }) := by
  have noted
      : (recordEmitted definition).run (run.noting records)
        = (.ok (),
            {
              run.noting records with emitted := (run.noting records).emitted ++ [definition]
            }) :=
    rfl
  rw [noted]
  simp [Run.noting]

theorem countLabels_noting {α : Type} (use : List (String × Nat) → α × List (String × Nat))
    (run : Run) (records : Records)
    : (countLabels use).run (run.noting records)
      = (.ok (use records.labelCounts).1,
          run.noting { records with labelCounts := (use records.labelCounts).2 }) :=
  rfl

/-- A level is entered with the records so far, and it is left with those of the steps on it. -/
theorem withLevel_noting {α : Type} {label : String} {action : RunM α} {run : Run}
    {before after : Records} {outcome : Except GenerationError α}
    (inner
      : action.run (Run.noting { run with levels := label :: run.levels } before)
        = (outcome, Run.noting { run with levels := label :: run.levels } after))
    : (withLevel label action).run (run.noting before) = (outcome, run.noting after) :=
  @withLevel_run (run.noting before) _ label label action _ outcome run.levels inner rfl

/-- Steps on a run do what their trace below the open levels says, and they leave the levels as
they are; by induction on the steps, each level from the levels that it is entered on.
-/
theorem Script.perform_trace (dialect : Dialect) {α : Type} (script : Script α) (run : Run)
    (records : Records)
    : (script.perform dialect).run (run.noting records)
      = ((script.trace dialect run.levels.reverse records).1,
          run.noting (script.trace dialect run.levels.reverse records).2) := by
  induction script generalizing run records with
  | done | fail => rfl
  | warn message next ih =>
      rw [perform, trace, run_keeping_bind, warn_noting]
      exact ih run _
  | record file next ih =>
      rw [perform, trace, run_keeping_bind, recordFile_noting]
      exact ih run _
  | define definition next ih =>
      rw [perform, trace, run_keeping_bind, recordEmitted_noting]
      exact ih run _
  | claim key origin next ih =>
      rw [perform, trace, run_keeping_bind, run_attempt (markHandled_noting ..)]
      exact ih _ run _
  | count use next ih =>
      rw [perform, trace, run_keeping_bind, countLabels_noting]
      exact ih _ run _
  | level label inner next inner_ih next_ih =>
      -- The inner steps start from a run on one more level, and the later ones from this run again.
      have entered := inner_ih { run with levels := label :: run.levels } records
      rw [List.reverse_cons] at entered
      rw [perform, trace, run_keeping_bind, run_attempt (withLevel_noting entered)]
      exact next_ih _ run _

/-- Handled definitions stay handled, by induction on the steps. -/
theorem Script.handled_trace (dialect : Dialect) {α : Type} (script : Script α)
    (path : List String) {records : Records} {handled : List (String × Handled)}
    (known : handled <:+ records.handled)
    : handled <:+ (script.trace dialect path records).2.handled := by
  induction script generalizing path records with
  | done | fail => exact known
  | warn message next ih | record file next ih | define definition next ih =>
      rw [trace]
      exact ih path known
  | claim key origin next ih =>
      have claims : records.handled <:+ (claimed dialect key origin records.handled).2 := by
        unfold claimed
        split
        · split <;> exact List.suffix_refl _
        · exact List.suffix_cons _ _
      rw [trace]
      exact ih _ path (known.trans claims)
  | count use next ih =>
      rw [trace]
      exact ih _ path known
  | level label inner next inner_ih next_ih =>
      rw [trace]
      exact next_ih _ path (inner_ih (path ++ [label]) known)

-----------------------------------------------------------------------------------------
-- Levels
-----------------------------------------------------------------------------------------

/-- The steps of a script come to an outcome and a run. The levels are those before the steps,
every warning is stored behind the levels around it, and nothing that was on record is lost.
-/
structure Script.Scoped {α : Type} (dialect : Dialect) (script : Script α) (run : Run)
    (outcome : Except GenerationError α) (after : Run) (records : Records)
    : Prop where
  traced : script.trace dialect run.levels.reverse run.records = (outcome, records)
  performed : (script.perform dialect).run run = (outcome, after)
  levels_eq : after.levels = run.levels
  warnings_eq : after.warnings = run.warnings ++ records.issued.map storedWarning
  files_eq : after.files = run.files ++ records.files
  handled_eq : after.handled = records.handled
  kept : run.handled <:+ after.handled

theorem Script.scoped {α : Type} (dialect : Dialect) (script : Script α) (run : Run)
    : ∃ outcome after records, script.Scoped dialect run outcome after records := by
  have performed := script.perform_trace dialect run run.records
  rw [Run.noting_records] at performed
  exact
    ⟨_, _, _, rfl, performed, rfl, rfl, rfl, rfl,
      script.handled_trace dialect run.levels.reverse (List.suffix_refl run.handled)⟩

/-- The levels of a run are scoped. All steps, however their levels are nested and wherever they
fail, leave the levels of any run as they are. So a level can be left after the steps on it, it is
left for the levels that it was entered from, and what comes of it is what comes of its steps:
their outcome, also where that is a failure, and all that they have put on record.
-/
theorem withLevel_scoped {α : Type} (dialect : Dialect) (script : Script α) (run : Run)
    : (∃ outcome after records, script.Scoped dialect run outcome after records)
      ∧ ∀ label,
        ∃ outcome middle records,
          script.Scoped dialect { run with levels := label :: run.levels } outcome middle records
          ∧ popLevel.run middle = (.ok (), { middle with levels := run.levels })
          ∧ (withLevel label (script.perform dialect)).run run
            = (outcome, { middle with levels := run.levels }) := by
  refine ⟨script.scoped dialect run, fun label => ?_⟩
  obtain ⟨outcome, middle, records, inner⟩ :=
    script.scoped dialect { run with levels := label :: run.levels }
  have popped : popLevel.run middle = (.ok (), { middle with levels := run.levels }) := by
    have levels := inner.levels_eq
    cases middle
    subst levels
    rfl
  exact
    ⟨outcome, middle, records, inner, popped, withLevel_run inner.performed inner.levels_eq⟩

/-- A failure on an inner level ends the outer one as well, and then the levels are left. -/
def failingScript : Script Unit :=
  .level "main"
    (.level "alu_1" (.warn "nested" (.fail (.internal .levelUnderflow)) : Script Unit) .ofExcept)
    (fun (_ : Except GenerationError Unit) => .warn "after" (.done ()))

example
    : ((failingScript.perform .vhdl).run .start).2.warnings = ["main/alu_1: nested", "after"] := by
  decide +kernel

-----------------------------------------------------------------------------------------
-- Generation
-----------------------------------------------------------------------------------------

namespace Script

/-- The steps of one script and then those of another one. -/
def bind {α β : Type} (first : Script α) (second : α → Script β) : Script β :=
  match first with
  | .done value => second value
  | .fail cause => .fail cause
  | .warn message next => .warn message (bind next second)
  | .record file next => .record file (bind next second)
  | .define definition next => .define definition (bind next second)
  | .claim key origin next => .claim key origin (fun isNew => bind (next isNew) second)
  | .count use next => .count use (fun result => bind (next result) second)
  | .level label inner next => .level label inner (fun outcome => bind (next outcome) second)

theorem perform_ofExcept (dialect : Dialect) {α : Type} (x : Except GenerationError α)
    : (ofExcept x).perform dialect = MonadExcept.ofExcept x := by
  cases x <;> rfl

theorem perform_bind (dialect : Dialect) {α β : Type} (first : Script α) (second : α → Script β)
    : (first.bind second).perform dialect
      = (do
          let result ← first.perform dialect
          (second result).perform dialect) := by
  induction first with
  | done | fail => simp [bind, perform]
  | warn message next ih | record file next ih | define definition next ih =>
      simp only [bind, perform, ih, bind_assoc]
  | claim key origin next ih | count use next ih =>
      simp only [bind, perform, ih, bind_assoc]
  | level label inner next inner_ih next_ih =>
      simp only [bind, perform, next_ih, bind_assoc]

end Script

/-- The action consists of the steps of a script. -/
def Scripted (dialect : Dialect) {α : Type} (action : RunM α) : Prop :=
  ∃ script : Script α, script.perform dialect = action

section Scripted

variable {dialect : Dialect} {α β : Type}

theorem attempt_bind_ofExcept (action : RunM α)
    : (do
        let outcome ← attempt action
        MonadExcept.ofExcept outcome)
      = action := by
  refine ExceptT.ext (funext fun run => ?_)
  show ((attempt action >>= fun outcome => MonadExcept.ofExcept outcome).run run) = action.run run
  cases ran : action.run run with
  | mk outcome after =>
      rw [run_keeping_bind, run_attempt ran]
      cases outcome <;> rfl

theorem scripted_pure (value : α) : Scripted dialect (pure value) := ⟨.done value, rfl⟩

theorem scripted_throw (cause : GenerationError)
    : Scripted dialect (throw cause : RunM α) :=
  ⟨.fail cause, rfl⟩

theorem scripted_ofExcept (x : Except GenerationError α)
    : Scripted dialect (MonadExcept.ofExcept x) :=
  ⟨.ofExcept x, Script.perform_ofExcept dialect x⟩

theorem scripted_bind {action : RunM α} {next : α → RunM β} (first : Scripted dialect action)
    (second : ∀ result, Scripted dialect (next result))
    : Scripted dialect (action >>= next) := by
  obtain ⟨script, rfl⟩ := first
  choose scripts same using second
  refine ⟨script.bind scripts, ?_⟩
  simp only [Script.perform_bind, same]

theorem scripted_warn (message : String) : Scripted dialect (warn message) :=
  ⟨.warn message (.done ()), rfl⟩

theorem scripted_recordFile (file : OutputFile) : Scripted dialect (recordFile file) :=
  ⟨.record file (.done ()), rfl⟩

theorem scripted_recordEmitted (definition : Emitted)
    : Scripted dialect (recordEmitted definition) :=
  ⟨.define definition (.done ()), rfl⟩

theorem scripted_forM {action : α → RunM PUnit} {items : List α}
    (each : ∀ item ∈ items, Scripted dialect (action item))
    : Scripted dialect (items.forM action) := by
  induction items with
  | nil => exact scripted_pure _
  | cons item rest ih =>
      obtain ⟨head, tail⟩ := List.forall_mem_cons.mp each
      exact scripted_bind head fun _ => ih tail

theorem scripted_countLabels (use : List (String × Nat) → α × List (String × Nat))
    : Scripted dialect (countLabels use) :=
  ⟨.count use .done, bind_pure _⟩

theorem scripted_markHandled (key origin : String)
    : Scripted dialect (markHandled dialect key origin) := by
  refine ⟨.claim key origin .ofExcept, ?_⟩
  simp only [Script.perform, Script.perform_ofExcept]
  exact attempt_bind_ofExcept _

theorem scripted_withLevel {label : String} {action : RunM α} (inner : Scripted dialect action)
    : Scripted dialect (withLevel label action) := by
  obtain ⟨script, rfl⟩ := inner
  refine ⟨.level label script .ofExcept, ?_⟩
  simp only [Script.perform, Script.perform_ofExcept]
  exact attempt_bind_ofExcept _

end Scripted

/-- A definition is emitted in steps if its architecture is formed in steps. -/
theorem scripted_emitDefinition [Arithmetic] {dialect : Dialect} {form : Form} {label : String}
    {architecture : RunM Hdl.Architecture} (inner : Scripted dialect architecture)
    : Scripted dialect (emitDefinition dialect form label architecture) := by
  refine scripted_bind (scripted_markHandled _ _) fun isNew => ?_
  split
  · refine scripted_bind (scripted_withLevel inner) fun body => ?_
    refine scripted_bind (scripted_ofExcept _) fun text => ?_
    exact scripted_bind (scripted_recordFile _) fun _ => scripted_recordEmitted _
  · exact scripted_pure _

variable {hierarchy : Hierarchy} {options : Options}

theorem scripted_structuralArchitecture (netlist : Netlist)
    : Scripted options.dialect (structuralArchitecture hierarchy options netlist) := by
  have steps
      : structuralArchitecture hierarchy options netlist
        = (do
            let counts ← countLabels (fun counts => (counts, counts))
            let drafted ←
              MonadExcept.ofExcept
                ((draftArchitecture hierarchy options netlist).run ⟨[], .empty, counts, .empty⟩)
            countLabels (fun _ => ((), drafted.2.labelCounts))
            drafted.2.notes.warnings.forM warn
            return drafted.1) :=
    rfl
  rw [steps]
  refine scripted_bind (scripted_countLabels _) fun counts => ?_
  refine scripted_bind (scripted_ofExcept _) fun drafted => ?_
  refine scripted_bind (scripted_countLabels _) fun _ => ?_
  exact
    scripted_bind (scripted_forM fun message _ => scripted_warn message) fun _ => scripted_pure _

/-- The architecture of a circuit is formed in steps, by induction on the bound on the circuits that
are entered.
-/
theorem scripted_circuitArchitecture [Arithmetic] (bound : Nat) (netlist : Netlist)
    : Scripted options.dialect (circuitArchitecture hierarchy options bound netlist) := by
  induction bound using Nat.strongRecOn generalizing netlist with
  | ind bound ih =>
      rw [circuitArchitecture_eq]
      have emitted (part : Part)
          : Scripted options.dialect (emitPart hierarchy options bound part) := by
        unfold emitPart
        split
        · refine scripted_bind (scripted_ofExcept _) fun realization => ?_
          dsimp only
          split
          · exact scripted_pure _
          · exact scripted_emitDefinition (scripted_pure _)
          · exact scripted_emitDefinition (scripted_pure _)
          · split
            · split
              · next lower => exact scripted_emitDefinition (ih _ lower _)
              · exact scripted_throw _
            · exact scripted_throw _
        · exact scripted_pure _
      refine scripted_bind (scripted_forM fun part _ => emitted part) fun _ => ?_
      refine scripted_bind (scripted_countLabels (fun _ => ((), []))) fun _ => ?_
      split
      · exact scripted_pure _
      · exact scripted_structuralArchitecture netlist

/-- A whole run consists of the steps of a script, so its levels are scoped. -/
theorem scripted_generateM [Machine] (library : Library) (top : CircuitRef) (options : Options)
    : Scripted options.dialect (generateM library top options) := by
  refine scripted_bind (scripted_ofExcept _) fun hierarchy => ?_
  refine scripted_bind (scripted_ofExcept _) fun netlist => ?_
  refine scripted_bind (scripted_forM fun message _ => scripted_warn message) fun _ => ?_
  split
  · exact scripted_emitDefinition (scripted_circuitArchitecture _ netlist)
  · exact scripted_throw _

end SchematicHdl.Generation
