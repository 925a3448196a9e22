import SchematicHdl.Generation.Run
import SchematicHdl.Realization.Placement

/-! The structural architecture of a circuit: declarations of its nets, hookup of its clocks and
pins, wiring between nets, inlined components and one instance per remaining component.
-/

namespace SchematicHdl.Generation

open Hdl (Architecture Expr SignalDecl Statement)
open Net (Point)

/-- Statements by section; the sections are emitted in this order. -/
structure Sections where
  clocks : List Statement
  wiring : List Statement
  pins : List Statement
  inlined : List Statement
  normal : List Statement
  subcircuits : List Statement
deriving Repr

namespace Sections

def empty : Sections := ⟨[], [], [], [], [], []⟩

/-- The sections with their titles, in order. -/
def titled (sections : Sections) : List (String × List Statement) :=
  [("Here all clock sources are connected", sections.clocks),
   ("Here all wiring is defined", sections.wiring),
   ("Here all boundary pins are connected", sections.pins),
   ("Here all in-lined components are defined", sections.inlined),
   ("Here all normal components are defined", sections.normal),
   ("Here all sub-circuits are defined", sections.subcircuits)]

/-- The statements of all sections that hold any, each under its title and apart from the one
before.
-/
def statements (sections : Sections) : List Statement :=
  let filled := sections.titled.filter (fun titledSection => !titledSection.2.isEmpty)
  let blocks :=
    filled.map (fun titledSection => .remark [titledSection.1] :: titledSection.2)
  [Statement.blank].intercalate blocks

end Sections

structure Draft where
  /-- What each identifier of the architecture stands for, under its case-folded spelling. -/
  names : List (String × String)
  notes : Notes
  labelCounts : List (String × Nat)
  sections : Sections

abbrev DraftM := StateT Draft (Except GenerationError)

/-- Claims an identifier of the architecture. -/
def claim (scope name what : String) : DraftM Unit := do
  let draft ← get
  match draft.names.lookup (Text.foldCase name) with
  | some first => throw (.identifierCollision name scope first what)
  | none => set { draft with names := (Text.foldCase name, what) :: draft.names }

def draftWarning (message : String) : DraftM Unit :=
  modify (fun draft =>
    { draft with notes := { draft.notes with warnings := draft.notes.warnings ++ [message] } })

/-- Runs an action on a placed component. -/
def onPlacement {α : Type} (action : PlacementM α) : DraftM α := do
  match (action.run (← get).notes).run with
  | (.ok result, notes) =>
      modify (fun draft => { draft with notes })
      return result
  | (.error error, _) => throw error

def addClocks (statements : List Statement) : DraftM Unit :=
  modify (fun draft =>
    {
      draft with
        sections := { draft.sections with clocks := draft.sections.clocks ++ statements }
    })

def addPins (statements : List Statement) : DraftM Unit :=
  modify (fun draft =>
    { draft with sections := { draft.sections with pins := draft.sections.pins ++ statements } })

def addInlined (statements : List Statement) : DraftM Unit :=
  modify (fun draft =>
    {
      draft with
        sections := { draft.sections with inlined := draft.sections.inlined ++ statements }
    })

def addNormal (statements : List Statement) : DraftM Unit :=
  modify (fun draft =>
    {
      draft with
        sections := { draft.sections with normal := draft.sections.normal ++ statements }
    })

def addSubcircuits (statements : List Statement) : DraftM Unit :=
  modify (fun draft =>
    {
      draft with
        sections :=
          { draft.sections with subcircuits := draft.sections.subcircuits ++ statements }
    })

/-- The signal that a clock source stands for. -/
def treeClock (mode : ClockMode) (tree : Nat) : Expr :=
  match mode with
  | .derived => .index (clockTreeName tree) derivedClockBit
  | .globalTick => .ref globalClockName

def placeClock (netlist : Netlist) (mode : ClockMode) (part : Part) : DraftM Unit :=
  match (part.end? 0).bind (fun resolved => resolved.points.head?.join), part.clockTree with
  | some point, some tree =>
      addClocks [.assign (netlist.pointExpr point) (treeClock mode tree)]
  | _, _ => draftWarning s!"Found an unconnected {part.component.describe}, it is ignored."

/-- One bit of a port. -/
def portBit (name : String) (width bit : Nat) : Expr :=
  if width = 1 then .ref name else .index name bit

/-- Drives the nets of an input pin from its port. -/
def inputPinStatements (netlist : Netlist) (name : String) (resolved : ResolvedEnd)
    : List Statement :=
  match netlist.endExpr? resolved with
  | some target => [.assign target (.ref name)]
  | none =>
      resolved.points.zipIdx.filterMap (fun (point, bit) =>
        point.map (fun point =>
          .assign (netlist.pointExpr point) (portBit name resolved.width bit)))

/-- Drives the port of an output pin from its nets; unconnected bits are tied to zero. -/
def outputPinStatements (netlist : Netlist) (name : String) (resolved : ResolvedEnd)
    : List Statement :=
  match netlist.endExpr? resolved with
  | some value => [.assign (.ref name) value]
  | none =>
      resolved.points.zipIdx.map (fun (point, bit) =>
        .assign (portBit name resolved.width bit) ((point.map netlist.pointExpr).getD (.bit .zero)))

def unconnectedOutputWarning (what : String) : String :=
  s!"Found an unconnected output pin, tied the pin to ground! ({what})"

def placeOutputPin (netlist : Netlist) (part : Part) (resolved : ResolvedEnd) : DraftM Unit :=
  match part.portName with
  | some name => do
      addPins (outputPinStatements netlist name resolved)
      if (netlist.endExpr? resolved).isNone && !resolved.isFullyConnected then
        draftWarning (unconnectedOutputWarning part.component.describe)
  | none =>
      match part.bubbles.output with
      | some range => do
          draftWarning (unconnectedOutputWarning part.component.describe)
          addPins
            [.assign (netlist.bubbleExpr .output range) (.filled .zero (.fixed range.length))]
      | none => return

def placePin (netlist : Netlist) (direction : Direction) (part : Part) : DraftM Unit :=
  match direction, part.end? 0 with
  | .input, some resolved =>
      match part.portName with
      | some name => addPins (inputPinStatements netlist name resolved)
      | none => return
  | .output, some resolved => placeOutputPin netlist part resolved
  | _, _ => return

/-- Ties one end of an instance to zero. -/
def tieEnd (netlist : Netlist) (resolved : ResolvedEnd) : List Statement :=
  match netlist.endExpr? resolved with
  | some target => [.assign target (.filled .zero (.fixed resolved.width))]
  | none =>
      resolved.connectedPoints.map (fun point =>
        .assign (netlist.pointExpr point) (.bit .zero))

/-- Ties to zero the nets at output pins that became bubbles inside the instantiated circuit, since
nothing behind those pins drives them.
-/
def tieBubbles (netlist : Netlist) (part : Part) (child : Netlist) : DraftM Unit :=
  (part.ends.zip child.pins).forM (fun (resolved, pin) => do
    if pin.category = .pin .output && pin.portName.isNone && !resolved.isUnconnected then
      addSubcircuits (tieEnd netlist resolved)
      draftWarning
        (unconnectedOutputWarning s!"{pin.component.describe} of {part.component.describe}"))

/-- The label of an instance: its own, if it has one, or the next of its kind. -/
def instanceLabel (part : Part) (form : Form) : DraftM String := do
  match part.component.title? with
  | some title => return Identifier.ofLabel title part.position
  | none =>
      let draft ← get
      let (label, labelCounts) := nextLabel draft.labelCounts form.labelStem
      set { draft with labelCounts }
      return label

def placeInstance (netlist : Netlist) (mode : ClockMode) (part : Part) (realization : Realization)
    : DraftM Unit := do
  let label ← instanceLabel part realization.form
  claim netlist.name label part.component.describe
  let inst ←
    onPlacement ((Placement.mk netlist part label mode).instantiate realization.form)
  match realization.definition with
  | .circuit child =>
      addSubcircuits [.instantiate inst]
      tieBubbles netlist part child
  | _ => addNormal [.instantiate inst]

def placeComponent (hierarchy : Hierarchy) (options : Options) (netlist : Netlist) (part : Part)
    : DraftM Unit := do
  let realization ←
    MonadExcept.ofExcept
      (Realization.resolve hierarchy options.clockMode options.dialect part.component)
  if realization.isInlined then
    addInlined
      (← onPlacement
        ((Placement.mk netlist part "" options.clockMode).inlineStatements realization))
  else
    placeInstance netlist options.clockMode part realization

def placePart (hierarchy : Hierarchy) (options : Options) (netlist : Netlist) (part : Part)
    : DraftM Unit :=
  match part.category with
  | .clockSource => placeClock netlist options.clockMode part
  | .pin direction => placePin netlist direction part
  | .normal => placeComponent hierarchy options netlist part
  | .subcircuit => placeComponent hierarchy options netlist part

def wiringStatement (netlist : Netlist) (run : Net.Run) : Statement :=
  .assign (netlist.sliceExpr run.target run.width) (netlist.sliceExpr run.source run.width)

/-- Claims the port names of the circuit. -/
def claimPorts (netlist : Netlist) (mode : ClockMode) : DraftM Unit :=
  (netlist.form mode).ports.forM (fun port =>
    claim netlist.name port.name s!"port \"{port.name}\"")

/-- Declares the root nets. -/
def declareNets (netlist : Netlist) : DraftM (List SignalDecl) :=
  netlist.nets.rootNets.mapM (fun net => do
    let name := netlist.nets.nameAt net
    claim netlist.name name s!"net {name}"
    return ⟨name, .fixed (netlist.nets.widthAt net), .wire⟩)

/-- Declares the dangling wires. -/
def declareOpenWires (netlist : Netlist) : DraftM (List SignalDecl) := do
  (← get).notes.openWires.mapM (fun name => do
    claim netlist.name name s!"open wire {name}"
    return ⟨name, .fixed 1, .wire⟩)

def draftArchitecture (hierarchy : Hierarchy) (options : Options) (netlist : Netlist)
    : DraftM Architecture := do
  claimPorts netlist options.clockMode
  let nets ← declareNets netlist
  netlist.parts.forM (placePart hierarchy options netlist)
  let wiring := netlist.nets.wiring.map (wiringStatement netlist)
  modify (fun draft => { draft with sections := { draft.sections with wiring } })
  let openWires ← declareOpenWires netlist
  return ⟨nets ++ openWires, (← get).sections.statements⟩

/-- The structural architecture of a circuit. Labels are numbered on from those that the run has
given out; the warnings are issued once the architecture is complete.
-/
def structuralArchitecture (hierarchy : Hierarchy) (options : Options) (netlist : Netlist)
    : RunM Architecture := do
  let start : Draft := ⟨[], .empty, (← get).labelCounts, .empty⟩
  let (architecture, draft) ←
    MonadExcept.ofExcept ((draftArchitecture hierarchy options netlist).run start)
  modify (fun run => { run with labelCounts := draft.labelCounts })
  draft.notes.warnings.forM warn
  return architecture

end SchematicHdl.Generation
