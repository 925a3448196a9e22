import SchematicHdl.Netlist.Analysis

/-! The hierarchy of a design: the netlists of the top circuit and of every circuit below it,
each after the circuits that it instantiates. Clock trees rise through output pins while the
circuits are analyzed and sink through input pins afterwards.
-/

namespace SchematicHdl

open Netlist (ofCircuit?)

/-- The analyzed circuits of a design. -/
structure Hierarchy where
  /-- Every netlist comes after the netlists of the circuits that it instantiates. -/
  netlists : List Netlist
  registry : ClockRegistry
  warnings : List String

namespace Hierarchy

/-- One step down: the circuit that holds the instance, and the wording of the step. -/
structure Step where
  circuit : Nat
  text : String
deriving DecidableEq, Repr

def Step.ofInstance (circuit : Circuit) (component : Component) : Step :=
  let instanceText :=
    match component.title? with
    | some title => "instance \"" ++ title ++ "\""
    | none => s!"instance #{component.position}"
  ⟨circuit.position, s!"{instanceText} in \"{circuit.name}\""⟩

/-- The steps from a circuit on. -/
def stepsFrom (path : List Step) (circuit : Nat) : List String :=
  (path.dropWhile (fun step => step.circuit ≠ circuit)).map Step.text

abbrev AnalysisM := StateT Hierarchy (Except GenerationError)

/-- Analyzes one circuit after all that it instantiates. -/
def addNetlist [Arithmetic] (library : Library) (circuit : Circuit) : AnalysisM Unit := do
  let hierarchy ← get
  let analyzed ← Netlist.analyze library circuit hierarchy.netlists hierarchy.registry
  set (
    {
      netlists := hierarchy.netlists ++ [analyzed.netlist],
      registry := analyzed.registry,
      warnings := hierarchy.warnings ++ analyzed.warnings
    } : Hierarchy)

/-- Analyzes a circuit and everything below it, unless that is done already. `waiting` holds the
circuits that are not on the path from the top; a circuit on the path instantiates itself.
-/
def visit [Arithmetic] (library : Library) (waiting : List Nat) (path : List Step)
    (target : CircuitRef)
    : AnalysisM Unit := do
  if (ofCircuit? (← get).netlists target.position).isSome then
    return
  if _ : target.position ∈ waiting then
    let circuit := library.circuitAt target.position
    circuit.components.forM (fun component =>
      match component.kind with
      | .subcircuit child =>
          visit library (waiting.erase target.position)
            (path ++ [Step.ofInstance circuit component]) child
      | _ => return)
    addNetlist library circuit
  else
    throw (.recursiveCircuit target.name (stepsFrom path target.position))
termination_by waiting.length
decreasing_by
  have h : target.position ∈ waiting := ‹_›
  rw [List.length_erase_of_mem h]
  exact Nat.sub_lt (List.length_pos_of_mem h) Nat.one_pos

/-- The clock trees that the instances of a circuit in one parent feed to one of its pins. -/
def feeds (parent : Netlist) (circuit : Nat) (pins : List Part) (pin : Nat) : List (Option Nat) :=
  parent.parts.flatMap (fun part =>
    match part.component.kind with
    | .subcircuit target =>
        if target.position = circuit then
          (part.ends.zip pins).filterMap (fun (resolved, candidate) =>
            if candidate.position = pin then
              some (resolved.singlePoint?.bind parent.clockTreeOf?)
            else none)
        else []
    | _ => [])

/-- The tree that all feeds agree on, if there are any. -/
def agreed? : List (Option Nat) → Option Nat
  | [] => none
  | first :: rest => if rest.all (· = first) then first else none

/-- The pin is fed from a clock tree by every instance. -/
def inherited? (parents : List Netlist) (netlist : Netlist) (pin : Part) : Option (Nat × Nat) :=
  if pin.category = .pin .input && pin.portName.isSome then
    (agreed? (parents.flatMap (fun parent =>
      feeds parent netlist.circuit.position netlist.pins pin.position))).map
        (fun tree => (pin.position, tree))
  else none

/-- Records that every instance feeds a pin from one clock tree. -/
def inherit (netlist : Netlist) (pin tree : Nat) : Netlist :=
  let points := netlist.pointsAt pin
  {
    netlist with
      clockPoints :=
        fun point => if point ∈ points then some tree else netlist.clockPoints point,
      pinClocks := fun other => if other = pin then some tree else netlist.pinClocks other,
      clockTrees := Netlist.insertAscending tree netlist.clockTrees
  }

/-- Hands the clock trees of the parents, all of them settled, to the input pins of a circuit. They
come out of a hash map, in the order of the run.
-/
def settle [Machine] (parents : List Netlist) (netlist : Netlist) : Netlist :=
  let clocks := netlist.pins.filterMap (inherited? parents netlist)
  (Machine.arrange netlist.circuit.position clocks).foldl
    (fun netlist clock => inherit netlist clock.1 clock.2) netlist

/-- Hands clock trees down, parents first. -/
def sinkClocks [Machine] : List Netlist → List Netlist
  | [] => []
  | netlist :: rest =>
      let parents := sinkClocks rest
      settle parents netlist :: parents

/-- Analyzes a circuit and every circuit below it. -/
def analyze [Machine] (library : Library) (top : CircuitRef)
    : Except GenerationError Hierarchy := do
  let waiting := List.range library.circuits.length
  let ((), hierarchy) ← (visit library waiting [] top).run ⟨[], .empty, []⟩
  return { hierarchy with netlists := sinkClocks hierarchy.netlists }

/-- The netlist of the top circuit, which comes last. -/
def top? (hierarchy : Hierarchy) : Option Netlist := hierarchy.netlists.getLast?

/-- The netlist of a circuit. -/
def netlistOf (hierarchy : Hierarchy) (target : CircuitRef) : Except GenerationError Netlist :=
  match ofCircuit? hierarchy.netlists target.position with
  | some netlist => .ok netlist
  | none => .error (.internal (.circuitNotAnalyzed target.name))

end Hierarchy

end SchematicHdl
