import SchematicHdl.Proofs.Hierarchy.Moving
import SchematicHdl.Realization.Placement

/-! Realizations of moved components. A component has the same form wherever its circuit stands, and
its placement comes to the same instance or to the same assignments.
-/

namespace SchematicHdl

open Hdl (Actual Bit Statement)
open Outcome

def Definition.moved (shift : Nat → Nat) : Definition → Definition
  | .circuit netlist => .circuit (netlist.moved shift)
  | definition => definition

def Realization.moved (shift : Nat → Nat) (realization : Realization) : Realization :=
  { realization with definition := realization.definition.moved shift }

def Placement.moved (shift : Nat → Nat) (placement : Placement) : Placement :=
  {
    placement with
      netlist := placement.netlist.moved shift,
      part := placement.part.moved shift
  }

variable {shift : Nat → Nat}

-----------------------------------------------------------------------------------------
-- Forms
-----------------------------------------------------------------------------------------

namespace Netlist

theorem pinPorts_moved (netlist : Netlist) (direction : Direction)
    : (netlist.moved shift).pinPorts direction = netlist.pinPorts direction := by
  unfold pinPorts
  rw [netlist.pins_moved, List.zipIdx_map, List.filterMap_map]
  refine congrArg (netlist.pins.zipIdx.filterMap ·) (funext fun (pin, endIndex) => ?_)
  show (if (pin.moved shift).category = .pin direction then _ else none) = _
  rw [pin.category_moved]
  rfl

@[simp]
theorem form_moved (netlist : Netlist) (mode : ClockMode)
    : (netlist.moved shift).form mode = netlist.form mode := by
  unfold form
  rw [netlist.pinPorts_moved, netlist.pinPorts_moved]
  rfl

@[simp]
theorem isRealizable_moved (netlist : Netlist)
    : (netlist.moved shift).isRealizable = netlist.isRealizable := by
  unfold isRealizable
  simp only [netlist.pins_moved, List.any_map, Function.comp_def, Part.category_moved]
  rfl

end Netlist

namespace Realization

theorem definition_moved (realization : Realization)
    : (realization.moved shift).definition = realization.definition.moved shift :=
  rfl

@[simp]
theorem isInlined_moved (realization : Realization)
    : (realization.moved shift).isInlined = realization.isInlined := by
  unfold isInlined moved
  cases realization.definition <;> rfl

theorem supports_moved (realization : Realization) (dialect : Dialect)
    : (realization.moved shift).supports dialect = realization.supports dialect := by
  unfold supports moved
  cases realization.definition with
  | circuit netlist => exact netlist.isRealizable_moved
  | inlined | builtIn | external => rfl

theorem unsupported_moved (component : Component) (dialect : Dialect)
    : unsupported (component.moved shift) dialect = unsupported component dialect := by
  rw [unsupported, component.describe_moved]
  rfl

theorem ofNetlist_moved (netlist : Netlist) (mode : ClockMode)
    : (ofNetlist netlist mode).moved shift = ofNetlist (netlist.moved shift) mode := by
  rw [ofNetlist, ofNetlist, netlist.form_moved]
  rfl

/-- Moved components are realized alike, by cases on what a component is. -/
theorem resolve_moved (injective : Function.Injective shift) (hierarchy : Hierarchy)
    (mode : ClockMode) (dialect : Dialect) (component : Component)
    : resolve (hierarchy.moved shift) mode dialect (component.moved shift)
      = moved shift <$> resolve hierarchy mode dialect component := by
  have checked (realization made : Realization) (same : realization.moved shift = made)
      : (if made.supports dialect then pure made
          else throw (unsupported component dialect) : Except GenerationError Realization)
        = moved shift
          <$> (if realization.supports dialect then pure realization
            else throw (unsupported component dialect)) := by
    rw [← same, supports_moved]
    split <;> rfl
  unfold resolve
  rw [unsupported_moved, component.describe_moved, component.kind_moved]
  cases component.kind with
  | primitive type => exact checked _ _ (by cases type <;> rfl)
  | subcircuit ref =>
      simp only [ComponentKind.moved, hierarchy.netlistOf_moved injective]
      cases hierarchy.netlistOf ref with
      | ok child => exact checked _ _ (ofNetlist_moved child mode)
      | error cause => rfl
  | external entity => exact checked _ _ rfl
  | unknown | pin | clock => rfl

end Realization

-----------------------------------------------------------------------------------------
-- Placements
-----------------------------------------------------------------------------------------

namespace Placement

variable (placement : Placement)

@[simp]
theorem description_moved : (placement.moved shift).description = placement.description :=
  placement.part.component.describe_moved

@[simp]
theorem endAt_moved : (placement.moved shift).endAt = placement.endAt := by
  funext endIndex
  unfold endAt
  rw [placement.description_moved]
  rfl

@[simp]
theorem isUnconnected_moved : (placement.moved shift).isUnconnected = placement.isUnconnected := by
  funext endIndex
  rw [isUnconnected, endAt_moved, isUnconnected]

@[simp]
theorem whole?_moved : (placement.moved shift).whole? = placement.whole? := by
  funext endIndex
  rw [whole?, endAt_moved]
  rfl

@[simp]
theorem bit?_moved : (placement.moved shift).bit? = placement.bit? := by
  funext endIndex bit
  rw [bit?, endAt_moved]
  rfl

@[simp]
theorem inputEnd_moved : (placement.moved shift).inputEnd = placement.inputEnd := by
  funext endIndex tie
  rw [inputEnd, endAt_moved]
  rfl

@[simp]
theorem outputEnd_moved : (placement.moved shift).outputEnd = placement.outputEnd := by
  funext endIndex
  rw [outputEnd, endAt_moved]
  rfl

@[simp]
theorem clockSource_moved : (placement.moved shift).clockSource = placement.clockSource := by
  funext endIndex
  rw [clockSource, endAt_moved]
  rfl

@[simp]
theorem warnOfClock_moved : (placement.moved shift).warnOfClock = placement.warnOfClock := by
  funext source
  cases source <;> simp only [warnOfClock, description_moved]

@[simp]
theorem bubbles_moved : (placement.moved shift).bubbles = placement.bubbles := by
  funext bus
  unfold bubbles
  rw [placement.description_moved]
  rfl

@[simp]
theorem firstBits_moved : (placement.moved shift).firstBits = placement.firstBits := by
  funext ends
  rw [firstBits, bit?_moved, firstBits]

@[simp]
theorem inputActual_moved : (placement.moved shift).inputActual = placement.inputActual := by
  funext port
  simp only [inputActual, inputEnd_moved, firstBits_moved, clockSource_moved, warnOfClock_moved,
    bubbles_moved]
  rfl

@[simp]
theorem drivesNothing_moved : (placement.moved shift).drivesNothing = placement.drivesNothing := by
  funext endIndex
  rw [drivesNothing, isUnconnected_moved, drivesNothing]

@[simp]
theorem outputActual_moved : (placement.moved shift).outputActual = placement.outputActual := by
  funext port
  simp only [outputActual, outputEnd_moved, drivesNothing_moved, bit?_moved, bubbles_moved,
    description_moved]

@[simp]
theorem instantiate_moved : (placement.moved shift).instantiate = placement.instantiate := by
  funext form
  simp only [instantiate, inputActual_moved, outputActual_moved]
  rfl

theorem constantStatements_moved
    : (placement.moved shift).constantStatements = placement.constantStatements := by
  simp only [constantStatements, whole?_moved, bit?_moved]
  rfl

theorem gateStatements_moved
    : (placement.moved shift).gateStatements = placement.gateStatements := by
  have bits : (placement.moved shift).gateBit? = placement.gateBit? := by
    funext type inputs bit
    simp only [gateBit?, bit?_moved]
  funext type inputs
  simp only [gateStatements, wholeOperands?, whole?_moved, bits]
  rfl

theorem gateBody_moved : (placement.moved shift).gateBody = placement.gateBody := by
  funext type
  simp only [gateBody, isUnconnected_moved, gateStatements_moved, description_moved]
  rfl

/-- An inlined component becomes the same assignments wherever its circuit stands. -/
theorem inlineStatements_moved (realization : Realization)
    : (placement.moved shift).inlineStatements (realization.moved shift)
      = placement.inlineStatements realization := by
  unfold inlineStatements
  rw [realization.definition_moved]
  cases realization.definition with
  | inlined type =>
      simp only [Definition.moved, isUnconnected_moved, constantStatements_moved, gateBody_moved]
  | builtIn | external | circuit => rfl

end Placement

end SchematicHdl
