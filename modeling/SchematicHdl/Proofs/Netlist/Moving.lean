import SchematicHdl.Netlist.Analysis
import SchematicHdl.Proofs.Identifier
import SchematicHdl.Proofs.Outcome
import SchematicHdl.Proofs.Schematic.Moving

/-! Netlists of moved circuits. They hold what the netlists of the circuits hold, with moved
references; how a circuit is analyzed does not depend on where it and its children stand.
-/

namespace SchematicHdl

open Net (Table)
open Outcome

def Part.moved (shift : Nat → Nat) (part : Part) : Part :=
  { part with component := part.component.moved shift }

def Netlist.moved (shift : Nat → Nat) (netlist : Netlist) : Netlist :=
  {
    netlist with
      circuit := netlist.circuit.moved shift,
      parts := netlist.parts.map (Part.moved shift)
  }

def Netlist.Analyzed.moved (shift : Nat → Nat) (analyzed : Netlist.Analyzed) : Netlist.Analyzed :=
  { analyzed with netlist := analyzed.netlist.moved shift }

variable {shift : Nat → Nat}

@[simp]
theorem Part.component_moved (part : Part)
    : (part.moved shift).component = part.component.moved shift :=
  rfl

@[simp]
theorem Part.isPin_moved (part : Part) : (part.moved shift).isPin = part.isPin :=
  part.component.isPin_moved

@[simp]
theorem Part.category_moved (part : Part) : (part.moved shift).category = part.category :=
  part.component.category_moved

namespace Netlist

@[simp]
theorem pins_moved (netlist : Netlist)
    : (netlist.moved shift).pins = netlist.pins.map (Part.moved shift) := by
  have same : Part.isPin ∘ Part.moved shift = Part.isPin := funext fun part => part.isPin_moved
  rw [pins, moved, List.filter_map, same]
  rfl

theorem part?_moved (netlist : Netlist) (position : Nat)
    : (netlist.moved shift).part? position = (netlist.part? position).map (Part.moved shift) :=
  List.getElem?_map

/-- Moved netlists are found where they are moved. -/
theorem ofCircuit?_moved (injective : Function.Injective shift) (netlists : List Netlist)
    (position : Nat)
    : ofCircuit? (netlists.map (moved shift)) (shift position)
      = (ofCircuit? netlists position).map (moved shift) := by
  unfold ofCircuit?
  rw [List.find?_map]
  congr
  funext netlist
  exact decide_eq_decide.mpr injective.eq_iff

-----------------------------------------------------------------------------------------
-- Steps of the analysis
-----------------------------------------------------------------------------------------

theorem resolveEnd_moved (circuit : Circuit) (nets : Table) (component : Component)
    (endIndex : Nat) (shape : EndShape)
    : resolveEnd (circuit.moved shift) nets (component.moved shift) endIndex shape
      = resolveEnd circuit nets component endIndex shape := by
  unfold resolveEnd wirePoints bitPoints
  rw [component.describe_moved]
  rfl

variable {library other : Library} {reached : Nat → Prop}

theorem resolvePart_moved [Arithmetic] (moves : library.Moves other shift reached)
    {circuit : Circuit} {nets : Table} {component : Component}
    (known : ∀ target, component.kind = .subcircuit target → reached target.position)
    : resolvePart other (circuit.moved shift) nets (component.moved shift)
      = Part.moved shift <$> resolvePart library circuit nets component := by
  unfold resolvePart
  rw [moves.layOut_moved known]
  simp only [resolveEnd_moved, map_bind, map_pure]
  rfl

theorem bindPin_moved [Arithmetic] (circuit : Circuit) (direction : Direction) (part : Part)
    : bindPin (circuit.moved shift) direction (part.moved shift)
      = Part.moved shift <$> bindPin circuit direction part := by
  obtain ⟨component, ends, bubbles, clockTree, portName⟩ := part
  unfold bindPin
  simp only [map_bind]
  refine bind_congr fun boundary => ?_
  cases ends with
  | nil => rfl
  | cons resolved rest =>
      simp only [Part.moved, Part.position, Component.describe_moved, Component.label_moved,
        Component.position_moved, Circuit.name_moved]
      split
      · simp only [map_bind, map_pure]
        rfl
      · cases boundary.names.lookup
            (Text.foldCase (Identifier.ofLabel (component.label.getD "") component.position)) with
        | some first => rfl
        | none => rfl

theorem bindPart_moved [Arithmetic] (circuit : Circuit) (part : Part)
    : bindPart (circuit.moved shift) (part.moved shift)
      = Part.moved shift <$> bindPart circuit part := by
  unfold bindPart
  rw [part.component_moved, Component.kind_moved]
  cases part.component.kind with
  | pin direction => exact bindPin_moved circuit direction part
  | primitive | clock | subcircuit | external | unknown => rfl

theorem takeIn_moved [Arithmetic] (injective : Function.Injective shift) (circuit : Circuit)
    (children : List Netlist) (part : Part)
    : takeIn (circuit.moved shift) (children.map (moved shift)) (part.moved shift)
      = Part.moved shift <$> takeIn circuit children part := by
  unfold takeIn
  simp only [map_bind]
  refine bind_congr fun inventory => ?_
  rw [part.component_moved, Component.kind_moved]
  cases part.component.kind with
  | subcircuit target =>
      simp only [ComponentKind.moved, CircuitRef.moved]
      rw [ofCircuit?_moved injective]
      cases ofCircuit? children target.position with
      | none => rfl
      | some child =>
          simp only [Option.map_some, map_bind, map_pure]
          rfl
  | clock =>
      simp only [ComponentKind.moved, map_bind, map_pure, Part.moved, Component.describe_moved,
        Component.attributes_moved, Circuit.name_moved]
  | primitive | pin | external | unknown => rfl

-----------------------------------------------------------------------------------------
-- Clock trees
-----------------------------------------------------------------------------------------

theorem endTrees_moved (injective : Function.Injective shift) (children : List Netlist)
    (part : Part)
    : endTrees (children.map (moved shift)) (part.moved shift) = endTrees children part := by
  unfold endTrees
  rw [part.component_moved, Component.kind_moved]
  cases part.component.kind with
  | subcircuit target =>
      simp only [ComponentKind.moved, CircuitRef.moved]
      rw [ofCircuit?_moved injective]
      cases ofCircuit? children target.position with
      | none => rfl
      | some child =>
          simp only [Option.map_some, pins_moved, List.map_map]
          rfl
  | primitive | pin | clock | external | unknown => rfl

theorem sourcePoints_moved (injective : Function.Injective shift) (children : List Netlist)
    (parts : List Part)
    : sourcePoints (children.map (moved shift)) (parts.map (Part.moved shift))
      = sourcePoints children parts := by
  have same
      : treePoints (children.map (moved shift)) ∘ Part.moved shift = treePoints children := by
    funext part
    show (part.ends.zip (endTrees _ _)).flatMap _ = _
    rw [endTrees_moved injective]
    rfl
  rw [sourcePoints, List.flatMap_map]
  exact congrArg List.reverse (congrArg (parts.flatMap ·) same)

theorem outputClock?_moved (clockPoints : Net.Point → Option Nat) (part : Part)
    : outputClock? clockPoints (part.moved shift) = outputClock? clockPoints part := by
  unfold outputClock?
  rw [part.category_moved]
  rfl

/-- A moved circuit is analyzed like the circuit itself. -/
theorem analyze_moved [Arithmetic] (moves : library.Moves other shift reached) {circuit : Circuit}
    (known
      : ∀ component ∈ circuit.components,
          ∀ target, component.kind = .subcircuit target → reached target.position)
    (named : Identifier.isValid circuit.name = true) (children : List Netlist)
    (registry : ClockRegistry)
    : analyze other (circuit.moved shift) (children.map (moved shift)) registry
      = Analyzed.moved shift <$> analyze library circuit children registry := by
  unfold analyze
  simp only [map_bind, map_pure]
  refine bind_congr fun bare => ?_
  show ((circuit.components.map (Component.moved shift)).mapM _ >>= _) = _
  rw [mapM_map_eq _ (Part.moved shift) fun component placed =>
    resolvePart_moved moves (known component placed), bind_map_left]
  refine bind_congr fun resolved => ?_
  rw [mapM_map_eq _ (Part.moved shift) fun part _ => bindPart_moved circuit part, StateT.run_map,
    bind_map_left]
  refine bind_congr fun (bound, boundary) => ?_
  rw [mapM_map_eq _ (Part.moved shift) fun part _ =>
      takeIn_moved moves.injective circuit children part,
    StateT.run_map, bind_map_left]
  refine bind_congr fun (parts, inventory) => ?_
  have filed
      : (resolved.map (Part.moved shift)).foldl filePart bare = resolved.foldl filePart bare :=
    List.foldl_map
  have clocks (clockPoints : Net.Point → Option Nat)
      : (parts.map (Part.moved shift)).filterMap (outputClock? clockPoints)
        = parts.filterMap (outputClock? clockPoints) := by
    rw [List.filterMap_map]
    exact congrArg (parts.filterMap ·) (funext fun part => outputClock?_moved clockPoints part)
  simp only [filed, sourcePoints_moved moves.injective, clocks, Circuit.name_moved,
    Identifier.ofLabel_of_isValid named]
  rw [Analyzed.moved, moved]
  rfl

end Netlist

end SchematicHdl
