import SchematicHdl.Proofs.Hdl.Scope
import SchematicHdl.Proofs.Schematic.Building
import SchematicHdl.Realization.Basic

/-! Forms and the components that they are for. The ports of a form take their values from ends of
the same direction and width, and they are declared with the widths that they have.
-/

namespace SchematicHdl

open Hdl (Expr Width)

-----------------------------------------------------------------------------------------
-- Supported shapes
-----------------------------------------------------------------------------------------

namespace Primitive

variable {type : Primitive} {attributes : Attributes}

theorem supportedWidth (supported : type.shapeFault? attributes = none)
    (sized : type.hasDataWidth = true)
    : minWidth ≤ attributes.width ∧ attributes.width ≤ maxWidth := by
  have inRange : isSupportedWidth (attributes.number "width" 1) = true := by
    simp only [shapeFault?, sized, if_true, Option.orElse_eq_orElse, Option.orElse_eq_or,
      Option.or_eq_none_iff] at supported
    simpa [widthFault?] using supported.2.2.1
  simp only [isSupportedWidth, Bool.and_eq_true, decide_eq_true_eq] at inRange
  rwa [Attributes.width, Nat.mod_eq_of_lt (Nat.lt_of_le_of_lt inRange.2 (by decide))]

theorem width_pos (supported : type.shapeFault? attributes = none)
    (sized : type.hasDataWidth = true)
    : 0 < attributes.width :=
  (supportedWidth supported sized).1

theorem supportedSelect (supported : type.shapeFault? attributes = none)
    (selects : type.isSelector = true)
    : 0 < attributes.selectBits ∧ attributes.selectBits ≤ maxSelectBits := by
  have inRange
      : 1 ≤ attributes.number "select" 1 ∧ attributes.number "select" 1 ≤ maxSelectBits := by
    simp only [shapeFault?, selects, if_true, Option.orElse_eq_orElse, Option.orElse_eq_or,
      Option.or_eq_none_iff] at supported
    simpa [selectFault?] using supported.1
  rwa [Attributes.selectBits, Nat.mod_eq_of_lt (Nat.lt_of_le_of_lt inRange.2 (by decide))]

theorem selectBits_pos (supported : type.shapeFault? attributes = none)
    (selects : type.isSelector = true)
    : 0 < attributes.selectBits :=
  (supportedSelect supported selects).1

/-- A selecting component has at least two selectable ends. -/
theorem one_lt_count (supported : type.shapeFault? attributes = none)
    (selects : type.isSelector = true)
    : 1 < Selector.count attributes :=
  Nat.one_lt_two_pow (Nat.pos_iff_ne_zero.mp (selectBits_pos supported selects))

/-- The ends of a selecting component are as many as can be selected: a supported select width does
not leave a long word.
-/
theorem ends_eq_endsFor (supported : type.shapeFault? attributes = none)
    (selects : type.isSelector = true)
    : type.ends attributes = type.endsFor attributes (Selector.count attributes) := by
  have inside : attributes.selectBits < Word.longBits :=
    Nat.lt_of_le_of_lt (supportedSelect supported selects).2 (by decide)
  rw [ends, selectionCount, Nat.mod_eq_of_lt inside, Selector.count]

end Primitive

-----------------------------------------------------------------------------------------
-- Ports and ends
-----------------------------------------------------------------------------------------

/-- The port takes its value from ends that have its direction and width. -/
def Port.FitsEnds (ends : List EndShape) (direction : Direction) (port : Port) : Prop :=
  match port.source with
  | .whole endIndex => ends[endIndex]? = some ⟨direction, port.width⟩
  | .bitwise bits =>
      1 < port.width
      ∧ bits.length = port.width
      ∧ ∀ endIndex ∈ bits, ends[endIndex]? = some ⟨direction, 1⟩
  | .clockOf endIndex => port.width = 1 ∧ ends[endIndex]? = some ⟨direction, 1⟩
  | .tickOf endIndex => port.width = 1 ∧ ends[endIndex]? = some ⟨direction, 1⟩
  | .bubbles _ => False
  | .fixed expr => port.width = 1 ∧ ∃ bit, expr = .bit bit

/-- The ports of a form fit the ends of its component, each with its own direction. -/
structure Form.FitsEnds (ends : List EndShape) (form : Form) : Prop where
  inputs : ∀ port ∈ form.inputs, port.FitsEnds ends .input
  outputs : ∀ port ∈ form.outputs, port.FitsEnds ends .output
  inouts : ∀ port ∈ form.inouts, port.FitsEnds ends .inout

/-- Every port is declared with the width that it has under the values of the generics. -/
def Form.Sized (form : Form) : Prop :=
  ∀ port ∈ form.ports, port.declared.value? form.parameters = some port.width

/-- A data width is declared as it is. -/
theorem value?_dataWidth {width : Nat} (positive : 0 < width)
    : (Width.sized width dataWidthGeneric).value? (dataWidthParameters width) = some width := by
  simp only [Width.sized, dataWidthParameters]
  split
  · simp [Width.value?]
  · simp only [Width.value?, Option.some.injEq]
    omega

namespace Selector

variable {attributes : Attributes}

/-- A numbered end of a selecting component. -/
theorem getElem?_replicate_append {shape : EndShape} {count i : Nat} {rest : List EndShape}
    (inside : i < count)
    : (List.replicate count shape ++ rest)[i]? = some shape := by
  rw [List.getElem?_append_left (by simpa using inside)]
  simp [inside]

/-- An end behind the numbered ends. -/
theorem getElem?_replicate_append_add {shape : EndShape} {count i : Nat} {rest : List EndShape}
    : (List.replicate count shape ++ rest)[count + i]? = rest[i]? := by
  rw [List.getElem?_append_right (by simp)]
  simp

theorem enablePort_fitsEnds {ends : List EndShape} {enableEnd : Nat}
    (enable : attributes.hasEnable = true → ends[enableEnd]? = some (.input 1))
    : (enablePort attributes enableEnd).FitsEnds ends .input := by
  simp only [enablePort, Port.tiedTo, Port.plain, Port.FitsEnds]
  cases here : attributes.hasEnable with
  | true => exact enable here
  | false => exact ⟨trivial, _, rfl⟩

/-- The numbered data ports of a selecting component take their values from its first ends. -/
theorem dataPort_fitsEnds {stem : String} {direction : Direction} {rest : List EndShape}
    {port : Port}
    (member : port ∈ (List.range (count attributes)).map (dataPort stem attributes))
    : port.FitsEnds
        (List.replicate (count attributes) ⟨direction, attributes.width⟩ ++ rest)
        direction := by
  obtain ⟨i, inside, rfl⟩ := List.mem_map.mp member
  exact getElem?_replicate_append (List.mem_range.mp inside)

theorem multiplexer_fitsEnds (attributes : Attributes)
    : (multiplexerForm attributes).FitsEnds
        (Primitive.multiplexer.endsFor attributes (count attributes)) := by
  simp only [Primitive.endsFor, List.append_assoc]
  refine ⟨fun port member => ?_, fun port member => ?_, by simp [multiplexerForm, form]⟩
  · rcases List.mem_append.mp member with data | other
    · exact dataPort_fitsEnds data
    · simp only [List.mem_cons, List.not_mem_nil, or_false] at other
      rcases other with rfl | rfl
      · exact getElem?_replicate_append_add (i := 0)
      · refine enablePort_fitsEnds fun enable => ?_
        rw [getElem?_replicate_append_add]
        simp [Primitive.enableEnds, enable]
  · obtain rfl := List.mem_singleton.mp member
    show (_ ++ _)[_]? = _
    rw [Nat.add_assoc, getElem?_replicate_append_add]
    cases enable : attributes.hasEnable <;>
      simp [Primitive.enableEnds, enableCount, enable, EndShape.output, Port.sizedBy, Port.plain]

theorem demultiplexer_fitsEnds (attributes : Attributes)
    : (demultiplexerForm attributes).FitsEnds
        (Primitive.demultiplexer.endsFor attributes (count attributes)) := by
  simp only [Primitive.endsFor, List.append_assoc]
  refine ⟨fun port member => ?_, fun port member => dataPort_fitsEnds member,
    by simp [demultiplexerForm, form]⟩
  simp only [demultiplexerForm, form, List.mem_cons, List.not_mem_nil, or_false] at member
  rcases member with rfl | rfl | rfl
  · show (_ ++ _)[_]? = _
    rw [Nat.add_assoc, getElem?_replicate_append_add]
    cases enable : attributes.hasEnable <;>
      simp [Primitive.enableEnds, enableCount, enable, EndShape.input, Port.sizedBy, Port.plain]
  · exact getElem?_replicate_append_add (i := 0)
  · refine enablePort_fitsEnds fun enable => ?_
    rw [getElem?_replicate_append_add]
    simp [Primitive.enableEnds, enable]

theorem decoder_fitsEnds (attributes : Attributes)
    : (decoderForm attributes).FitsEnds
        (Primitive.decoder.endsFor attributes (count attributes)) := by
  simp only [Primitive.endsFor, List.append_assoc]
  refine ⟨fun port member => ?_, fun port member => ?_, by simp [decoderForm, form]⟩
  · simp only [decoderForm, form, List.mem_cons, List.not_mem_nil, or_false] at member
    rcases member with rfl | rfl
    · exact getElem?_replicate_append_add (i := 0)
    · refine enablePort_fitsEnds fun enable => ?_
      rw [getElem?_replicate_append_add]
      simp [Primitive.enableEnds, enable]
  · obtain ⟨i, inside, rfl⟩ := List.mem_map.mp member
    exact getElem?_replicate_append (List.mem_range.mp inside)

/-- The status outputs follow the enable input, which follows the address. -/
theorem priorityEncoder_fitsEnds {attributes : Attributes}
    (supported : Primitive.priorityEncoder.shapeFault? attributes = none)
    : (priorityEncoderForm attributes).FitsEnds
        (Primitive.priorityEncoder.endsFor attributes (count attributes)) := by
  simp only [Primitive.endsFor]
  refine ⟨fun port member => ?_, fun port member => ?_, by simp [priorityEncoderForm, form]⟩
  · simp only [priorityEncoderForm, form, List.mem_cons, List.not_mem_nil, or_false] at member
    rcases member with rfl | rfl
    · refine ⟨Primitive.one_lt_count supported rfl, by simp [Port.plain], ?_⟩
      intro endIndex inside
      exact getElem?_replicate_append (List.mem_range.mp inside)
    · exact getElem?_replicate_append_add (i := 1)
  · simp only [priorityEncoderForm, form, List.mem_cons, List.not_mem_nil, or_false] at member
    rcases member with rfl | rfl | rfl
    · exact getElem?_replicate_append_add (i := 0)
    · exact getElem?_replicate_append_add (i := 2)
    · exact getElem?_replicate_append_add (i := 3)

end Selector

theorem Register.form_fitsEnds (attributes : Attributes)
    : (Register.form attributes).FitsEnds (Primitive.register.ends attributes) := by
  refine ⟨fun port member => ?_, fun port member => ?_, by simp [Register.form]⟩
  · simp only [Register.form, List.mem_cons, List.not_mem_nil, or_false] at member
    rcases member with rfl | rfl | rfl | rfl | rfl
    · rfl
    · rfl
    · exact ⟨rfl, rfl⟩
    · exact ⟨rfl, rfl⟩
    · rfl
  · simp only [Register.form, List.mem_cons, List.not_mem_nil, or_false] at member
    obtain rfl := member
    rfl

/-- The ends of an external entity are its ports. -/
theorem ExternalEntity.form_fitsEnds (entity : ExternalEntity)
    : entity.form.FitsEnds (entity.ports.map (fun port => ⟨port.direction, port.width⟩)) := by
  have each (direction : Direction)
      : ∀ port ∈ entity.formPorts direction,
          port.FitsEnds (entity.ports.map (fun port => ⟨port.direction, port.width⟩))
            direction := by
    intro port member
    obtain ⟨⟨declared, endIndex⟩, numbered, made⟩ := List.mem_filterMap.mp member
    simp only at made
    split at made
    · next same =>
        obtain rfl := Option.some.inj made
        have found := (List.mem_zipIdx_iff_getElem?).1 numbered
        simp only at found
        simp [Port.FitsEnds, Port.plain, found, same]
    · cases made
  exact ⟨each .input, each .output, each .inout⟩

-----------------------------------------------------------------------------------------
-- Declared widths
-----------------------------------------------------------------------------------------

namespace Realization

/-- The ports of a component with its own definition fit its ends. -/
theorem ofPrimitive_fitsEnds {type : Primitive} {attributes : Attributes}
    (supported : type.shapeFault? attributes = none)
    (notInlined : (ofPrimitive type attributes).isInlined = false)
    : (ofPrimitive type attributes).form.FitsEnds (type.ends attributes) := by
  cases type with
  | multiplexer =>
      exact Primitive.ends_eq_endsFor supported rfl ▸ Selector.multiplexer_fitsEnds attributes
  | demultiplexer =>
      exact Primitive.ends_eq_endsFor supported rfl ▸ Selector.demultiplexer_fitsEnds attributes
  | decoder => exact Primitive.ends_eq_endsFor supported rfl ▸ Selector.decoder_fitsEnds attributes
  | priorityEncoder =>
      exact Primitive.ends_eq_endsFor supported rfl ▸ Selector.priorityEncoder_fitsEnds supported
  | register => exact Register.form_fitsEnds attributes
  | and | or | xor | nand | nor | xnor | not | constant => cases notInlined

/-- A port that is as wide as the data, under the data width generic. -/
theorem sizedBy_value? {port : Port} {width : Nat} (positive : 0 < width)
    (same : port.width = width)
    : (port.sizedBy dataWidthGeneric).declared.value? (dataWidthParameters width)
      = some port.width := by
  simp only [Port.sizedBy, same]
  exact value?_dataWidth positive

theorem ofPrimitive_sized {type : Primitive} {attributes : Attributes}
    (supported : type.shapeFault? attributes = none)
    (notInlined : (ofPrimitive type attributes).isInlined = false)
    : (ofPrimitive type attributes).form.Sized := by
  intro port member
  simp only [Form.ports, Form.drivingPorts, List.mem_append] at member
  cases type with
  | multiplexer =>
      have positive := Primitive.width_pos supported rfl
      simp only [ofPrimitive, Selector.multiplexerForm, Selector.form, List.mem_append,
        List.mem_map, List.mem_range, List.mem_cons, List.not_mem_nil, or_false] at member
      rcases member with (⟨i, -, rfl⟩ | rfl | rfl) | rfl
      · exact sizedBy_value? positive rfl
      · rfl
      · rfl
      · exact sizedBy_value? positive rfl
  | demultiplexer =>
      have positive := Primitive.width_pos supported rfl
      simp only [ofPrimitive, Selector.demultiplexerForm, Selector.form, List.mem_map,
        List.mem_range, List.mem_cons, List.not_mem_nil, or_false] at member
      rcases member with (rfl | rfl | rfl) | ⟨i, -, rfl⟩
      · exact sizedBy_value? positive rfl
      · rfl
      · rfl
      · exact sizedBy_value? positive rfl
  | decoder =>
      simp only [ofPrimitive, Selector.decoderForm, Selector.form, List.mem_map,
        List.mem_range, List.mem_cons, List.not_mem_nil, or_false] at member
      rcases member with (rfl | rfl) | ⟨i, -, rfl⟩ <;> rfl
  | priorityEncoder =>
      simp only [ofPrimitive, Selector.priorityEncoderForm, Selector.form, List.mem_cons,
        List.not_mem_nil, or_false] at member
      rcases member with (rfl | rfl) | rfl | rfl | rfl <;> rfl
  | register =>
      have positive := Primitive.width_pos supported rfl
      simp only [ofPrimitive, Register.form, List.mem_cons, List.not_mem_nil, or_false] at member
      rcases member with (rfl | rfl | rfl | rfl | rfl) | rfl
      · rfl
      · rfl
      · rfl
      · rfl
      · exact sizedBy_value? positive rfl
      · exact sizedBy_value? positive rfl
  | and | or | xor | nand | nor | xnor | not | constant => cases notInlined

end Realization

/-- Ports that are declared with their own widths. -/
theorem Form.Sized.of_plain {form : Form}
    (plain : ∀ port ∈ form.ports, port.declared = .fixed port.width)
    : form.Sized := by
  intro port member
  rw [plain port member]
  rfl

theorem ExternalEntity.form_sized (entity : ExternalEntity) : entity.form.Sized := by
  refine .of_plain fun port member => ?_
  have each {direction : Direction} (listed : port ∈ entity.formPorts direction)
      : port.declared = .fixed port.width := by
    obtain ⟨⟨declared, endIndex⟩, -, made⟩ := List.mem_filterMap.mp listed
    simp only at made
    split at made
    · obtain rfl := Option.some.inj made
      rfl
    · cases made
  simp only [Form.ports, Form.drivingPorts, ExternalEntity.form, List.mem_append] at member
  rcases member with listed | listed | listed <;> exact each listed

/-- All ports of a circuit are declared with their own widths. -/
theorem Netlist.form_plain {netlist : Netlist} {mode : ClockMode}
    : ∀ port ∈ (netlist.form mode).ports, port.declared = .fixed port.width := by
  intro port member
  have bubbles {bus : Direction} (listed : port ∈ netlist.bubblePorts bus)
      : port.declared = .fixed port.width := by
    simp only [Netlist.bubblePorts] at listed
    split at listed
    · cases listed
    · obtain rfl := List.mem_singleton.mp listed
      rfl
  have pins {direction : Direction} (listed : port ∈ netlist.pinPorts direction)
      : port.declared = .fixed port.width := by
    obtain ⟨⟨pin, endIndex⟩, -, made⟩ := List.mem_filterMap.mp listed
    simp only at made
    split at made
    · obtain ⟨name, -, rfl⟩ := Option.map_eq_some_iff.mp made
      rfl
    · cases made
  simp only [Form.ports, Form.drivingPorts, Netlist.form, List.mem_append] at member
  rcases member with (((listed | listed) | listed) | listed) | (listed | listed) | listed
  · obtain ⟨tree, -, rfl⟩ := List.mem_map.mp listed
    rfl
  · split at listed
    · obtain rfl := List.mem_singleton.mp listed
      rfl
    · cases listed
  · exact bubbles listed
  · exact pins listed
  · exact bubbles listed
  · exact pins listed
  · exact bubbles listed

end SchematicHdl
