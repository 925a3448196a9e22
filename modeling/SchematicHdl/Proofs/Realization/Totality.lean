import SchematicHdl.Proofs.Keeping
import SchematicHdl.Proofs.Realization.Resolve

/-! Placing a component never fails. Each end that a port is fed by or drives is there, each bubble
bus that a port asks for has a range of the component, and no port that drives takes its value from
a clock or from the circuit around it.
-/

namespace SchematicHdl

open Hdl (Actual Expr Statement)
open Outcome

namespace Placement

variable {placement : Placement}

-----------------------------------------------------------------------------------------
-- Ends
-----------------------------------------------------------------------------------------

/-- The placed component has the end. -/
def Has (placement : Placement) (endIndex : Nat) : Prop :=
  ∃ resolved, placement.endAt endIndex = .ok resolved

theorem has_of_hasEnd {endIndex width : Nat}
    (has : placement.part.HasEnd placement.netlist endIndex width)
    : placement.Has endIndex := by
  obtain ⟨_, resolved, found, _⟩ := has
  exact ⟨resolved, endAt_eq_ok.mpr found⟩

section Reading

variable {endIndex : Nat} (has : placement.Has endIndex)
include has

theorem Has.exists_isUnconnected
    : ∃ unconnected, placement.isUnconnected endIndex = .ok unconnected :=
  exists_bind_ok has fun _ => ⟨_, rfl⟩

theorem Has.exists_whole? : ∃ expr?, placement.whole? endIndex = .ok expr? :=
  exists_bind_ok has fun _ => ⟨_, rfl⟩

theorem Has.exists_bit? (bit : Nat) : ∃ expr?, placement.bit? endIndex bit = .ok expr? :=
  exists_bind_ok has fun _ => ⟨_, rfl⟩

theorem Has.exists_inputEnd (tie : Hdl.Bit)
    : ∃ actual, placement.inputEnd endIndex tie = .ok actual := by
  refine exists_bind_ok has fun resolved => ?_
  split
  · exact ⟨_, rfl⟩
  · split <;> exact ⟨_, rfl⟩

theorem Has.exists_clockSource : ∃ source, placement.clockSource endIndex = .ok source := by
  refine exists_bind_ok has fun resolved => ?_
  split
  · exact ⟨_, rfl⟩
  · split <;> exact ⟨_, rfl⟩

end Reading

-----------------------------------------------------------------------------------------
-- Ports
-----------------------------------------------------------------------------------------

theorem total_openWire : Total openWire :=
  total_bind total_get fun _ => total_bind (total_modify _) fun _ => total_pure _

theorem total_orOpenWire (expr? : Option Expr) : Total (orOpenWire expr?) := by
  cases expr? with
  | some expr => exact total_pure expr
  | none => exact total_openWire

theorem Has.total_outputEnd {endIndex : Nat} (has : placement.Has endIndex)
    : Total (placement.outputEnd endIndex) := by
  refine total_bind (total_ofExcept has) fun resolved => ?_
  split
  · exact total_pure _
  · split
    · exact total_pure _
    · exact total_bind (total_mapM fun _ _ => total_orOpenWire _) fun _ => total_pure _

/-- A bus that has bubbles for the component has a range for it. -/
theorem exists_bubbles {bus : Direction} {width : Nat} (positive : 0 < width)
    (reserved : Reserved width (placement.part.bubbles.get bus))
    : ∃ expr, placement.bubbles bus = .ok expr := by
  unfold bubbles
  cases range : placement.part.bubbles.get bus with
  | some range => exact ⟨_, rfl⟩
  | none =>
      rw [range] at reserved
      exact absurd reserved (Nat.pos_iff_ne_zero.mp positive)

theorem total_warnOfClock (source : ClockSource) : Total (placement.warnOfClock source) := by
  cases source with
  | tree tree => exact total_pure _
  | gated net => exact total_modify _
  | unconnected => exact total_modify _

theorem exists_firstBits {ends : List Nat} (has : ∀ endIndex ∈ ends, placement.Has endIndex)
    : ∃ bits, placement.firstBits ends = .ok bits :=
  exists_mapM_ok fun endIndex member => (has endIndex member).exists_bit? 0

/-- The actual of an input port can be formed, by cases on the source of the port. -/
theorem total_inputActual {port : Port} (fits : port.Fits placement)
    : Total (placement.inputActual port) := by
  obtain ⟨name, width, declared, source, tie⟩ := port
  cases source with
  | whole endIndex => exact total_ofExcept ((has_of_hasEnd fits).exists_inputEnd tie)
  | bitwise ends =>
      have bits := exists_firstBits fun endIndex member => has_of_hasEnd (fits.2.2 endIndex member)
      refine total_bind (total_ofExcept bits) fun _ => ?_
      split <;> exact total_pure _
  | clockOf endIndex =>
      refine total_bind (total_ofExcept (has_of_hasEnd fits.2).exists_clockSource) fun _ => ?_
      exact total_bind (total_warnOfClock _) fun _ => total_pure _
  | tickOf endIndex =>
      have source := (has_of_hasEnd fits.2).exists_clockSource
      exact total_bind (total_ofExcept source) fun _ => total_pure _
  | bubbles bus =>
      exact total_bind (total_ofExcept (exists_bubbles fits.1 fits.2.2)) fun _ => total_pure _
  | fixed expr => exact total_pure _

end Placement

/-- The port takes its value from something that it can drive. -/
def Port.CanDrive (port : Port) : Prop :=
  match port.source with
  | .whole _ => True
  | .bitwise _ => True
  | .bubbles _ => True
  | _ => False

namespace Placement

variable {placement : Placement}

/-- The actual of a port that can drive can be formed, by cases on the source of the port. -/
theorem total_outputActual {port : Port} (fits : port.Fits placement) (drives : port.CanDrive)
    : Total (placement.outputActual port) := by
  obtain ⟨name, width, declared, source, tie⟩ := port
  cases source with
  | whole endIndex => exact (has_of_hasEnd fits).total_outputEnd
  | bitwise ends =>
      have bits (endIndex : Nat) (member : endIndex ∈ ends)
          : Total (do orOpenWire (← MonadExcept.ofExcept (placement.bit? endIndex 0))) := by
        have bit := (has_of_hasEnd (fits.2.2 endIndex member)).exists_bit? 0
        exact total_bind (total_ofExcept bit) total_orOpenWire
      unfold outputActual
      dsimp only
      split
      · exact total_pure _
      · exact total_bind (total_mapM bits) fun _ => total_pure _
  | bubbles bus =>
      exact total_bind (total_ofExcept (exists_bubbles fits.1 fits.2.2)) fun _ => total_pure _
  | clockOf | tickOf | fixed => cases drives

/-- An instance can be formed for every form that fits and drives what it can. -/
theorem total_instantiate {form : Form} (fits : form.Fits placement)
    (drives : ∀ port ∈ form.drivingPorts, port.CanDrive)
    : Total (placement.instantiate form) := by
  have inputs : ∀ port ∈ form.inputs, port.Fits placement :=
    fun port member => fits port (List.mem_append_left _ member)
  have driven : ∀ port ∈ form.drivingPorts, port.Fits placement :=
    fun port member => fits port (List.mem_append_right _ member)
  refine total_bind (total_mapM fun port member => ?_) fun _ => ?_
  · exact total_bind (total_inputActual (inputs port member)) fun _ => total_pure _
  · refine total_bind (total_mapM fun port member => ?_) fun _ => total_pure _
    have actual := total_outputActual (driven port member) (drives port member)
    exact total_bind actual fun _ => total_pure _

-----------------------------------------------------------------------------------------
-- Inlined components
-----------------------------------------------------------------------------------------

section Inlined

variable (output : placement.Has Gate.outputEnd)
include output

theorem exists_constantStatements
    : ∃ statements, placement.constantStatements = .ok statements := by
  refine exists_bind_ok output.exists_whole? fun target => ?_
  split
  · exact ⟨_, rfl⟩
  · refine exists_bind_ok (exists_mapM_ok fun bit _ => ?_) fun _ => ⟨_, rfl⟩
    exact output.exists_bit? bit

variable {inputs : List Nat} (has : ∀ endIndex ∈ inputs, placement.Has endIndex)
include has

theorem exists_gateBit? (type : Primitive) (bit : Nat)
    : ∃ statement?, placement.gateBit? type inputs bit = .ok statement? := by
  refine exists_bind_ok (output.exists_bit? bit) fun target => ?_
  split
  · exact ⟨_, rfl⟩
  · have operands := exists_mapM_ok fun endIndex member => (has endIndex member).exists_bit? bit
    refine exists_bind_ok operands fun _ => ?_
    dsimp only
    split <;> exact ⟨_, rfl⟩

theorem exists_gateStatements (type : Primitive)
    : ∃ statements, placement.gateStatements type inputs = .ok statements := by
  refine exists_bind_ok output.exists_whole? fun whole => ?_
  have operands : ∃ operands, placement.wholeOperands? inputs = .ok operands := by
    have each := exists_mapM_ok fun endIndex member => (has endIndex member).exists_whole?
    exact exists_bind_ok each fun _ => ⟨_, rfl⟩
  refine exists_bind_ok operands fun operands => ?_
  split
  · exact ⟨_, rfl⟩
  · refine exists_bind_ok (exists_mapM_ok fun bit _ => ?_) fun _ => ⟨_, rfl⟩
    exact exists_gateBit? output has type bit

end Inlined

theorem total_gateBody {type : Primitive} (output : placement.Has Gate.outputEnd)
    (has
      : ∀ endIndex ∈ Gate.inputEnds type placement.part.component.attributes,
          placement.Has endIndex)
    : Total (placement.gateBody type) := by
  refine total_ofExcept_bind (exists_filterM_ok fun endIndex member => ?_) ?_
  · exact exists_bind_ok (has endIndex member).exists_isUnconnected fun _ => ⟨_, rfl⟩
  · intro connected filtered
    split
    · exact total_bind (total_modify _) fun _ => total_pure _
    · refine total_ofExcept (exists_gateStatements output (fun endIndex member => ?_) type)
      exact has endIndex (((mem_filterM filtered).2 endIndex).1 member).1

theorem total_inlineStatements {realization : Realization} {type : Primitive}
    (definition : realization.definition = .inlined type) (output : placement.Has Gate.outputEnd)
    (has
      : ∀ endIndex ∈ Gate.inputEnds type placement.part.component.attributes,
          placement.Has endIndex)
    : Total (placement.inlineStatements realization) := by
  simp only [inlineStatements, definition]
  refine total_ofExcept_bind output.exists_isUnconnected fun unconnected _ => ?_
  split
  · exact total_pure _
  · split
    · exact total_ofExcept (exists_constantStatements output)
    · exact total_gateBody output has

end Placement

-----------------------------------------------------------------------------------------
-- Resolved components
-----------------------------------------------------------------------------------------

/-- No built-in definition has an output that it could not drive, by cases on its type. -/
theorem Realization.ofPrimitive_canDrive {type : Primitive} {attributes : Attributes}
    (notInlined : (ofPrimitive type attributes).isInlined = false)
    : ∀ port ∈ (ofPrimitive type attributes).form.drivingPorts, port.CanDrive := by
  intro port member
  cases type with
  | multiplexer | register =>
      obtain rfl := List.mem_singleton.mp member
      trivial
  | demultiplexer | decoder =>
      have output := (List.mem_append.mp member).resolve_right List.not_mem_nil
      obtain ⟨i, -, rfl⟩ := List.mem_map.mp output
      trivial
  | priorityEncoder =>
      simp only [ofPrimitive, Form.drivingPorts, Selector.priorityEncoderForm, Selector.form,
        List.append_nil, List.mem_cons, List.not_mem_nil, or_false] at member
      rcases member with rfl | rfl | rfl <;> trivial
  | and | or | xor | nand | nor | xnor | not | constant => cases notInlined

theorem ExternalEntity.form_canDrive (entity : ExternalEntity)
    : ∀ port ∈ entity.form.drivingPorts, port.CanDrive := by
  have each (direction : Direction) : ∀ port ∈ entity.formPorts direction, port.CanDrive := by
    intro port member
    obtain ⟨⟨declared, endIndex⟩, -, made⟩ := List.mem_filterMap.mp member
    dsimp only at made
    split at made
    · obtain rfl := Option.some.inj made
      trivial
    · cases made
  intro port member
  exact (List.mem_append.mp member).elim (each .output port) (each .inout port)

/-- A circuit drives the bubbles and the pins of its instances. -/
theorem Netlist.form_canDrive (netlist : Netlist) (mode : ClockMode)
    : ∀ port ∈ (netlist.form mode).drivingPorts, port.CanDrive := by
  have bubbles (bus : Direction) : ∀ port ∈ netlist.bubblePorts bus, port.CanDrive := by
    intro port member
    unfold bubblePorts at member
    dsimp only at member
    split at member
    · cases member
    · obtain rfl := List.mem_singleton.mp member
      trivial
  have pins : ∀ port ∈ netlist.pinPorts .output, port.CanDrive := by
    intro port member
    obtain ⟨⟨pin, endIndex⟩, -, made⟩ := List.mem_filterMap.mp member
    dsimp only at made
    split at made
    · obtain ⟨name, -, rfl⟩ := Option.map_eq_some_iff.mp made
      trivial
    · cases made
  intro port member
  rcases List.mem_append.mp member with output | inout
  · exact (List.mem_append.mp output).elim (bubbles .output port) (pins port)
  · exact bubbles .inout port inout

namespace Realization

variable {hierarchy : Hierarchy} {library : Library} {placement : Placement} {dialect : Dialect}
  {realization : Realization}
  (resolves
    : Resolves hierarchy placement.mode dialect placement.part.component realization)
  (holds
    : Netlist.Holds library hierarchy.netlists placement.netlist placement.part.component
        placement.part)
include resolves holds

/-- An instance of a component can be formed wherever the component is placed. -/
theorem Resolves.total_instantiate (sound : hierarchy.Sound library)
    (supported : placement.part.component.Supported) (notInlined : realization.isInlined = false)
    : Total (placement.instantiate realization.form) := by
  refine
    Placement.total_instantiate (resolves.fits sound placement holds supported notInlined).1 ?_
  cases resolves with
  | primitive => exact ofPrimitive_canDrive notInlined
  | subcircuit => exact Netlist.form_canDrive _ _
  | external => exact ExternalEntity.form_canDrive _

/-- An inlined component becomes statements wherever it is placed. -/
theorem Resolves.total_inlineStatements (inlined : realization.isInlined = true)
    : Total (placement.inlineStatements realization) := by
  cases resolves with
  | @primitive type kind =>
      obtain ⟨output, inputs⟩ := Gate.ends_eq inlined
      have has (endIndex : Nat) {shape : EndShape}
          (shaped
            : (type.ends placement.part.component.attributes)[endIndex]? = some shape)
          : placement.Has endIndex :=
        Placement.has_of_hasEnd (holds.hasEnd (by simpa only [Library.ends, kind] using shaped))
      refine Placement.total_inlineStatements ?_ (has _ output) fun endIndex member =>
        has endIndex (inputs endIndex member)
      cases type <;> first | rfl | cases inlined
  | subcircuit | external => cases inlined

end Realization

end SchematicHdl
