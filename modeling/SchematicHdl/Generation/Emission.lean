import SchematicHdl.Generation.Structure
import SchematicHdl.Hdl.Listing

/-! Emitting a design: one file for each distinct definition, definitions before the definitions
that instantiate them, and the top circuit last.
-/

namespace SchematicHdl.Generation

open Hdl (Architecture)

/-- Where the file of a definition goes, below the output directory. -/
def filePath (dialect : Dialect) (form : Form) : String :=
  s!"{form.directory}/{form.name}.{dialect.fileExtension}"

/-- Emits a definition unless it was emitted before. Its architecture is formed one level below the
current one, under the given label.
-/
def emitDefinition [Arithmetic] (dialect : Dialect) (form : Form) (label : String)
    (architecture : RunM Architecture) : RunM Unit := do
  if ← markHandled dialect form.name form.origin then
    let definition : Emitted := ⟨form, ← withLevel label architecture⟩
    let text ← MonadExcept.ofExcept (definition.unit.render dialect)
    recordFile ⟨filePath dialect form, text⟩
    recordEmitted definition

/-- The label of the level in which the definition of a component is formed. -/
def levelLabel (component : Component) : String := component.label.getD component.describe

/-- The component has a definition to be emitted. -/
def isPlaced (part : Part) : Bool :=
  match part.category with
  | .normal => true
  | .subcircuit => true
  | _ => false

/-- The position of the netlist of a circuit. -/
def positionOf? (hierarchy : Hierarchy) (netlist : Netlist) : Option Nat :=
  hierarchy.netlists.findIdx? (fun candidate =>
    candidate.circuit.position = netlist.circuit.position)

/-- Emits every definition that a circuit instantiates and forms the circuit's own architecture. A
hand-written architecture stands in for the structural one. Only circuits before `bound` are
entered; a hierarchy lists every circuit after the circuits that it instantiates.
-/
def circuitArchitecture [Arithmetic] (hierarchy : Hierarchy) (options : Options) (bound : Nat)
    (netlist : Netlist) : RunM Architecture := do
  let dialect := options.dialect
  netlist.parts.forM (fun part => do
    if isPlaced part then
      let realization ←
        MonadExcept.ofExcept
          (Realization.resolve hierarchy options.clockMode dialect part.component)
      let emit := emitDefinition dialect realization.form (levelLabel part.component)
      match realization.definition with
      | .inlined _ => return
      | .builtIn architecture => emit (return architecture)
      | .external entity => emit (return .raw entity.body)
      | .circuit child =>
          match positionOf? hierarchy child with
          | some position =>
              if _ : position < bound then
                emit (circuitArchitecture hierarchy options position child)
              else
                throw (.internal (.circuitNotAnalyzed child.circuit.name))
          | none => throw (.internal (.circuitNotAnalyzed child.circuit.name)))
  resetLabels
  match netlist.circuit.customBody dialect with
  | some text => return .raw text
  | none => structuralArchitecture hierarchy options netlist
termination_by bound

/-- Emits the top circuit of a hierarchy, after the warnings of the analysis. -/
def emitTop [Arithmetic] (hierarchy : Hierarchy) (options : Options) (netlist : Netlist)
    : RunM Unit := do
  hierarchy.warnings.forM warn
  if netlist.isRealizable then
    emitDefinition options.dialect (netlist.form options.clockMode) netlist.name
      (circuitArchitecture hierarchy options hierarchy.netlists.length netlist)
  else
    throw
      (.unsupportedComponent s!"Circuit \"{netlist.circuit.name}\"" Attributes.empty.summary
        options.dialect)

/-- Generates a circuit and everything below it. -/
def generateM [Machine] (library : Library) (top : CircuitRef) (options : Options) : RunM Unit := do
  let hierarchy ← MonadExcept.ofExcept (Hierarchy.analyze library top)
  let netlist ← MonadExcept.ofExcept (hierarchy.netlistOf top)
  emitTop hierarchy options netlist

/-- The outcome of a run: its error, if it failed, and the warnings and files that it left, with
the definitions in them.
-/
structure Outcome where
  error : Option GenerationError
  warnings : List String
  files : List OutputFile
  emitted : List Emitted
deriving Repr

def generate [Machine] (library : Library) (top : CircuitRef) (options : Options) : Outcome :=
  match ((generateM library top options).run .start).run with
  | (.ok (), run) => ⟨none, run.warnings, run.files, run.emitted⟩
  | (.error error, run) => ⟨some error, run.warnings, run.files, run.emitted⟩

/-- What is reported of a run: its warnings, once it has succeeded. -/
def Outcome.reported (outcome : Outcome) : List String :=
  if outcome.error.isNone then outcome.warnings else []

end SchematicHdl.Generation
