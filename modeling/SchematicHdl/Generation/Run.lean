import SchematicHdl.Failure
import SchematicHdl.Realization.Form
import SchematicHdl.Text

/-! The state of a generation run: which definitions are emitted, where in the instance hierarchy
the run is, and the warnings and files so far. A failing step keeps what it did before it failed.
-/

namespace SchematicHdl.Generation

/-- What a run is asked for. -/
structure Options where
  dialect : Dialect
  outputDirectory : String
  clockMode : ClockMode
deriving DecidableEq, Repr

def defaultOutputDirectory : String := "hdl_out"

/-- A written file, named relative to the output directory. -/
structure OutputFile where
  path : String
  text : String
deriving DecidableEq, Repr

/-- A definition that is emitted or being emitted. -/
structure Handled where
  key : String
  origin : String
deriving DecidableEq, Repr

/-- A definition whose file is written. -/
structure Emitted where
  form : Form
  architecture : Hdl.Architecture
deriving Repr

/-- The text of the definition is the render of this unit. -/
def Emitted.unit (emitted : Emitted) : Hdl.DesignUnit := emitted.form.unit emitted.architecture

structure Run where
  /-- Handled definitions under their case-folded keys. -/
  handled : List (String × Handled)
  /-- Labels of the open hierarchy levels, innermost first. -/
  levels : List String
  /-- Number of labels given out for each stem. -/
  labelCounts : List (String × Nat)
  warnings : List String
  /-- Files in the order in which they were written. -/
  files : List OutputFile
  /-- The definitions in these files. -/
  emitted : List Emitted
deriving Repr

abbrev RunM := ExceptT GenerationError (StateM Run)

namespace Run

def start : Run := ⟨[], [], [], [], [], []⟩

/-- The open hierarchy levels, outermost first. -/
def path (run : Run) : String := "/".intercalate run.levels.reverse

def isHandled (run : Run) (key : String) : Bool :=
  (run.handled.lookup (Text.foldCase key)).isSome

/-- A warning as it is stored: behind the path of the open levels, if there are any. -/
def located (run : Run) (message : String) : String :=
  if run.levels.isEmpty then message else run.path ++ ": " ++ message

end Run

/-- Claims a key for a definition and tells whether the definition is new. Keys are compared
without regard to letter case; a key that stands for another definition is a collision.
-/
def markHandled (dialect : Dialect) (key origin : String) : RunM Bool := do
  let run ← get
  match run.handled.lookup (Text.foldCase key) with
  | some first =>
      if first = ⟨key, origin⟩ then
        return false
      else
        throw
          (.identifierCollision key (dialect.displayName ++ " library") first.origin origin)
  | none =>
      set { run with handled := (Text.foldCase key, ⟨key, origin⟩) :: run.handled }
      return true

def pushLevel (label : String) : RunM Unit :=
  modify (fun run => { run with levels := label :: run.levels })

def popLevel : RunM Unit := do
  match (← get).levels with
  | [] => throw (.internal .levelUnderflow)
  | _ :: levels => modify (fun run => { run with levels })

/-- Runs an action one level below the current one. The level is left whether or not the action
fails.
-/
def withLevel {α : Type} (label : String) (action : RunM α) : RunM α := do
  pushLevel label
  let result ← ExceptT.lift action.run
  popLevel
  MonadExcept.ofExcept result

def warn (message : String) : RunM Unit :=
  modify (fun run => { run with warnings := run.warnings ++ [run.located message] })

/-- The next label of a stem, and the counts after it. Labels are numbered from 1. -/
def nextLabel (counts : List (String × Nat)) (stem : String) : String × List (String × Nat) :=
  let number := (counts.lookup stem).getD 0 + 1
  (s!"{stem}_{number}", (stem, number) :: counts)

def freshLabel (stem : String) : RunM String := do
  let run ← get
  let (label, labelCounts) := nextLabel run.labelCounts stem
  set { run with labelCounts }
  return label

def resetLabels : RunM Unit := modify (fun run => { run with labelCounts := [] })

def recordFile (file : OutputFile) : RunM Unit :=
  modify (fun run => { run with files := run.files ++ [file] })

def recordEmitted (definition : Emitted) : RunM Unit :=
  modify (fun run => { run with emitted := run.emitted ++ [definition] })

end SchematicHdl.Generation
