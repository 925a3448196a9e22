import SchematicHdl.Proofs.Generation.Emission
import SchematicHdl.Proofs.Realization.Moving

/-! Generating moved circuits. No text and no name that is written tells where a circuit stands, so
the outcome of a run is the same wherever the circuits of a design are moved.
-/

namespace SchematicHdl.Generation

open SchematicHdl.Outcome

variable {shift : Nat → Nat}

-----------------------------------------------------------------------------------------
-- Architectures
-----------------------------------------------------------------------------------------

section Parts

variable (netlist : Netlist) (mode : ClockMode) (part : Part)

theorem placeClock_moved
    : placeClock (netlist.moved shift) mode (part.moved shift) = placeClock netlist mode part := by
  unfold placeClock
  rw [part.component_moved, part.component.describe_moved]
  rfl

theorem placeOutputPin_moved (resolved : ResolvedEnd)
    : placeOutputPin (netlist.moved shift) (part.moved shift) resolved
      = placeOutputPin netlist part resolved := by
  unfold placeOutputPin
  rw [part.component_moved, part.component.describe_moved]
  rfl

theorem placePin_moved (direction : Direction)
    : placePin (netlist.moved shift) direction (part.moved shift)
      = placePin netlist direction part := by
  simp only [placePin, placeOutputPin_moved]
  rfl

theorem tieBubbles_moved (child : Netlist)
    : tieBubbles (netlist.moved shift) (part.moved shift) (child.moved shift)
      = tieBubbles netlist part child := by
  unfold tieBubbles
  rw [child.pins_moved, List.zip_map_right]
  simp only [List.forM_eq_forM, List.forM_map, Prod.map, Part.category_moved, Part.component_moved,
    Component.describe_moved]
  rfl

theorem placeInstance_moved (realization : Realization)
    : placeInstance (netlist.moved shift) mode (part.moved shift) (realization.moved shift)
      = placeInstance netlist mode part realization := by
  have made (label : String)
      : (Placement.mk (netlist.moved shift) (part.moved shift) label mode).instantiate
        = (Placement.mk netlist part label mode).instantiate :=
    Placement.instantiate_moved ⟨netlist, part, label, mode⟩
  obtain ⟨form, definition⟩ := realization
  unfold placeInstance
  simp only [made, part.component_moved, Component.describe_moved]
  cases definition with
  | circuit child =>
      simp only [Realization.moved, Definition.moved, tieBubbles_moved]
      rfl
  | inlined | builtIn | external => rfl

end Parts

variable (hierarchy : Hierarchy) (options : Options) (netlist : Netlist)

theorem placeComponent_moved (injective : Function.Injective shift) (part : Part)
    : placeComponent (hierarchy.moved shift) options (netlist.moved shift) (part.moved shift)
      = placeComponent hierarchy options netlist part := by
  have inlined (realization : Realization)
      : (Placement.mk (netlist.moved shift) (part.moved shift) ""
            options.clockMode).inlineStatements (realization.moved shift)
        = (Placement.mk netlist part "" options.clockMode).inlineStatements realization :=
    Placement.inlineStatements_moved ⟨netlist, part, "", options.clockMode⟩ realization
  simp only [placeComponent, part.component_moved, Realization.resolve_moved injective,
    passing_ofExcept_map_bind, Realization.isInlined_moved, inlined, placeInstance_moved]

theorem placePart_moved (injective : Function.Injective shift) (part : Part)
    : placePart (hierarchy.moved shift) options (netlist.moved shift) (part.moved shift)
      = placePart hierarchy options netlist part := by
  unfold placePart
  rw [part.category_moved]
  simp only [placeClock_moved, placePin_moved, placeComponent_moved _ _ _ injective]

theorem structuralArchitecture_moved (injective : Function.Injective shift)
    : structuralArchitecture (hierarchy.moved shift) options (netlist.moved shift)
      = structuralArchitecture hierarchy options netlist := by
  have drafted
      : draftArchitecture (hierarchy.moved shift) options (netlist.moved shift)
        = draftArchitecture hierarchy options netlist := by
    have parts
        : (netlist.moved shift).parts.forM
            (placePart (hierarchy.moved shift) options (netlist.moved shift))
          = netlist.parts.forM (placePart hierarchy options netlist) := by
      show (netlist.parts.map (Part.moved shift)).forM _ = _
      simp only [List.forM_eq_forM, List.forM_map, placePart_moved _ _ _ injective]
    have ports
        : claimPorts (netlist.moved shift) options.clockMode
          = claimPorts netlist options.clockMode := by
      unfold claimPorts
      rw [netlist.form_moved]
      rfl
    rw [draftArchitecture, parts, ports]
    rfl
  rw [structuralArchitecture, drafted]
  rfl

-----------------------------------------------------------------------------------------
-- Definitions
-----------------------------------------------------------------------------------------

theorem positionOf?_moved (injective : Function.Injective shift)
    : positionOf? (hierarchy.moved shift) (netlist.moved shift)
      = positionOf? hierarchy netlist := by
  have same (candidate : Netlist)
      : decide
          ((candidate.moved shift).circuit.position = (netlist.moved shift).circuit.position)
        = decide (candidate.circuit.position = netlist.circuit.position) :=
    decide_eq_decide.mpr injective.eq_iff
  show (hierarchy.netlists.map (Netlist.moved shift)).findIdx? _ = _
  rw [List.findIdx?_map]
  exact congrArg (hierarchy.netlists.findIdx? ·) (funext same)

/-- What is emitted for a part is the same if what is emitted below it is. -/
theorem emitPart_moved [Arithmetic] (injective : Function.Injective shift) {bound : Nat}
    (part : Part)
    (inner
      : ∀ position < bound,
          ∀ child,
            circuitArchitecture (hierarchy.moved shift) options position (child.moved shift)
            = circuitArchitecture hierarchy options position child)
    : emitPart (hierarchy.moved shift) options bound (part.moved shift)
      = emitPart hierarchy options bound part := by
  have placed : isPlaced (part.moved shift) = isPlaced part := by
    rw [isPlaced, part.category_moved, isPlaced]
  have label : levelLabel (part.component.moved shift) = levelLabel part.component := by
    rw [levelLabel, Component.describe_moved]
    rfl
  simp only [emitPart, placed, part.component_moved, label, Realization.resolve_moved injective,
    keeping_ofExcept_map_bind]
  split
  · refine bind_congr fun realization => ?_
    obtain ⟨form, definition⟩ := realization
    cases definition with
    | circuit child =>
        simp only [Realization.moved, Definition.moved, positionOf?_moved _ _ injective]
        split
        · split
          next lower =>
            rw [inner _ lower]
          next => rfl
        · rfl
    | inlined | builtIn | external => rfl
  · rfl

/-- The architecture of a circuit is the same wherever the circuit stands, by induction on the bound
on the circuits that are entered.
-/
theorem circuitArchitecture_moved [Arithmetic] (injective : Function.Injective shift) (bound : Nat)
    : circuitArchitecture (hierarchy.moved shift) options bound (netlist.moved shift)
      = circuitArchitecture hierarchy options bound netlist := by
  induction bound using Nat.strongRecOn generalizing netlist with
  | ind bound ih =>
      have parts
          : (netlist.moved shift).parts.forM (emitPart (hierarchy.moved shift) options bound)
            = netlist.parts.forM (emitPart hierarchy options bound) := by
        show (netlist.parts.map (Part.moved shift)).forM _ = _
        simp only [List.forM_eq_forM, List.forM_map]
        refine congrArg (forM netlist.parts) (funext fun part => ?_)
        exact emitPart_moved hierarchy options injective part fun position lower child =>
          ih position lower child
      rw [circuitArchitecture_eq, circuitArchitecture_eq, parts,
        structuralArchitecture_moved _ _ _ injective]
      rfl

theorem emitTop_moved [Arithmetic] (injective : Function.Injective shift)
    : emitTop (hierarchy.moved shift) options (netlist.moved shift)
      = emitTop hierarchy options netlist := by
  have length : (hierarchy.moved shift).netlists.length = hierarchy.netlists.length :=
    List.length_map _
  simp only [emitTop, netlist.isRealizable_moved, netlist.form_moved, length,
    circuitArchitecture_moved _ _ _ injective]
  rfl

variable {library other : Library} {reached : Nat → Prop} {top : CircuitRef}

/-- Where input pins share no points, the outcome is the same wherever the circuits below the top
circuit stand, in any two runs of one build.
-/
theorem generate_moved {first second : Machine} (same : first.toArithmetic = second.toArithmetic)
    (moves : library.Moves other shift reached) (known : reached top.position)
    (apart
      : ∀ hierarchy,
          @Hierarchy.analyze first library top = .ok hierarchy
          → ∀ netlist ∈ hierarchy.netlists, netlist.InputsApart)
    : @generate second other (top.moved shift) options = @generate first library top options := by
  have run
      : @generateM second other (top.moved shift) options
        = @generateM first library top options := by
    simp only [generateM, Hierarchy.analyze_moved same moves known apart, keeping_ofExcept_map_bind,
      Hierarchy.netlistOf_moved moves.injective]
    rw [same]
    simp only [emitTop_moved _ _ _ moves.injective]
  unfold generate
  rw [run]

end SchematicHdl.Generation
