import SchematicHdl.Hierarchy
import SchematicHdl.Realization.Circuit
import SchematicHdl.Realization.External
import SchematicHdl.Realization.Gate
import SchematicHdl.Realization.Register
import SchematicHdl.Realization.Selector

/-! How each placed component is expressed in an output language: its form together with the
source of its architecture.
-/

namespace SchematicHdl

open Hdl (Architecture)

/-- Where the architecture of a component comes from. -/
inductive Definition where
  /-- None of its own: the component becomes assignments in the architecture of its circuit. -/
  | inlined (type : Primitive)
  | builtIn (architecture : Architecture)
  | external (entity : ExternalEntity)
  | circuit (netlist : Netlist)

structure Realization where
  form : Form
  definition : Definition

namespace Realization

def isInlined (realization : Realization) : Bool :=
  match realization.definition with
  | .inlined _ => true
  | _ => false

/-- The component can be expressed in a dialect. -/
def supports (realization : Realization) (dialect : Dialect) : Bool :=
  match realization.definition with
  | .inlined _ => true
  | .builtIn _ => true
  | .external entity => dialect = entity.dialect
  | .circuit netlist => netlist.isRealizable

def ofPrimitive (type : Primitive) (attributes : Attributes) : Realization :=
  match type with
  | .multiplexer =>
      ⟨Selector.multiplexerForm attributes, .builtIn (Selector.multiplexerArchitecture attributes)⟩
  | .demultiplexer =>
      ⟨Selector.demultiplexerForm attributes,
        .builtIn (Selector.demultiplexerArchitecture attributes)⟩
  | .decoder =>
      ⟨Selector.decoderForm attributes, .builtIn (Selector.decoderArchitecture attributes)⟩
  | .priorityEncoder =>
      ⟨Selector.priorityEncoderForm attributes,
        .builtIn (Selector.priorityEncoderArchitecture attributes)⟩
  | .register => ⟨Register.form attributes, .builtIn (Register.architecture attributes)⟩
  | gate => ⟨Gate.form gate attributes, .inlined gate⟩

def ofNetlist (netlist : Netlist) (mode : ClockMode) : Realization :=
  ⟨netlist.form mode, .circuit netlist⟩

def ofExternal (entity : ExternalEntity) : Realization := ⟨entity.form, .external entity⟩

def unsupported (component : Component) (dialect : Dialect) : GenerationError :=
  .unsupportedComponent component.describe component.attributes.summary dialect

/-- The realization of a component of an analyzed design in a dialect. -/
def resolve (hierarchy : Hierarchy) (mode : ClockMode) (dialect : Dialect) (component : Component)
    : Except GenerationError Realization := do
  let realization ←
    match component.kind with
    | .primitive type => .ok (ofPrimitive type component.attributes)
    | .subcircuit target => (hierarchy.netlistOf target).map (fun child => ofNetlist child mode)
    | .external entity => .ok (ofExternal entity)
    | .unknown _ _ => .error (unsupported component dialect)
    | .pin _ => .error (.internal (.notRealizable component.describe))
    | .clock => .error (.internal (.notRealizable component.describe))
  if realization.supports dialect then
    return realization
  else
    throw (unsupported component dialect)

end Realization

end SchematicHdl
