import SchematicHdl.Proofs.Generation.Definitions
import SchematicHdl.Proofs.Schematic.Entities
import SchematicHdl.Proofs.Text

/-! Definitions that share a key. A definition is emitted once for all components with its name and
origin, whatever attributes they have; these two tell everything that its header depends on.
-/

namespace SchematicHdl

open Hdl (Architecture Bit DesignUnit Width)
open Text (IsSuffix)

@[simp]
theorem Port.plain_declaration (name : String) (width : Nat) (source : PortSource)
    (direction : Direction)
    : (Port.plain name width source).declaration direction = ⟨name, direction, .fixed width⟩ :=
  rfl

@[simp]
theorem Port.tiedTo_declaration (port : Port) (bit : Bit) (direction : Direction)
    : (port.tiedTo bit).declaration direction = port.declaration direction :=
  rfl

@[simp]
theorem Port.sizedBy_declaration (port : Port) (generic : String) (direction : Direction)
    : (port.sizedBy generic).declaration direction
      = ⟨port.name, direction, .sized port.width generic⟩ :=
  rfl

@[simp]
theorem Port.plain_name (name : String) (width : Nat) (source : PortSource)
    : (Port.plain name width source).name = name :=
  rfl

@[simp]
theorem Port.plain_width (name : String) (width : Nat) (source : PortSource)
    : (Port.plain name width source).width = width :=
  rfl

/-- Units of one architecture are equal if their headers are. -/
theorem Form.unit_eq {a b : Form} {architecture : Architecture} (name : a.name = b.name)
    (generics : a.parameters.map Prod.fst = b.parameters.map Prod.fst)
    (ports : (a.unit architecture).ports = (b.unit architecture).ports)
    : a.unit architecture = b.unit architecture := by
  simp only [unit, DesignUnit.mk.injEq, and_true] at ports ⊢
  exact ⟨name, generics, ports⟩

theorem sized_eq_of_wide {a b : Nat} (wide : 1 < a ↔ 1 < b) (generic : String)
    : Width.sized a generic = Width.sized b generic := by
  simp only [Width.sized, gt_iff_lt, wide]

theorem dataWidthParameters_names_eq_of_wide {a b : Nat} (wide : 1 < a ↔ 1 < b)
    : (dataWidthParameters a).map Prod.fst = (dataWidthParameters b).map Prod.fst := by
  simp only [dataWidthParameters, gt_iff_lt, wide]
  split <;> rfl

namespace Selector

variable {a b : Attributes}

theorem floatingSuffix_isSuffix (attributes : Attributes)
    : IsSuffix '_' (floatingSuffix attributes).toList := by
  unfold floatingSuffix
  split
  · exact .nil _
  · exact .cons _ _

theorem tristateSuffix_isSuffix (attributes : Attributes)
    : IsSuffix '_' (tristateSuffix attributes).toList := by
  unfold tristateSuffix
  split
  · exact .cons _ _
  · exact .nil _

theorem suffixes_isSuffix (attributes : Attributes)
    : IsSuffix '_'
        ((tristateSuffix attributes).toList ++ (floatingSuffix attributes).toList) :=
  (tristateSuffix_isSuffix attributes).append (floatingSuffix_isSuffix attributes)

/-- The number of selectable ends tells the width of the select input. -/
theorem selectBits_eq_of_count (same : count a = count b) : a.selectBits = b.selectBits :=
  (Nat.pow_right_inj Nat.one_lt_two).mp same

/-- Names with a mark for wide data, a number and a suffix tell all three. -/
theorem busSuffix_inj {s t : List Char} (suffixS : IsSuffix '_' s) (suffixT : IsSuffix '_' t)
    (same
      : (busSuffix a).toList ++ '_' :: (Nat.toDigits 10 (count a) ++ s)
        = (busSuffix b).toList ++ '_' :: (Nat.toDigits 10 (count b) ++ t))
    : (1 < a.width ↔ 1 < b.width) ∧ a.selectBits = b.selectBits ∧ s = t := by
  unfold busSuffix at same
  split at same <;> split at same
  · next wideA wideB =>
      have numbers := Text.digits_suffix_inj suffixS suffixT (by simpa using same)
      exact ⟨iff_of_true wideA wideB, selectBits_eq_of_count numbers.1, numbers.2⟩
  · exact absurd (by simpa using same.symm) (Text.toDigits_ne_cons (c := 'b') (by decide))
  · exact absurd (by simpa using same) (Text.toDigits_ne_cons (c := 'b') (by decide))
  · next wideA wideB =>
      have numbers := Text.digits_suffix_inj suffixS suffixT (by simpa using same)
      exact ⟨iff_of_false wideA wideB, selectBits_eq_of_count numbers.1, numbers.2⟩

/-- Multiplexers of one name have one header. -/
theorem multiplexer_unit_eq (same : (multiplexerForm a).name = (multiplexerForm b).name)
    (architecture : Architecture)
    : (multiplexerForm a).unit architecture = (multiplexerForm b).unit architecture := by
  have texts := congrArg String.toList same
  simp [multiplexerForm, form, toString] at texts
  obtain ⟨wide, select, -⟩ :=
    busSuffix_inj (floatingSuffix_isSuffix a) (floatingSuffix_isSuffix b) texts
  have counts : count a = count b := congrArg (Nat.pow 2) select
  refine Form.unit_eq same (dataWidthParameters_names_eq_of_wide wide) ?_
  simp [Form.unit, multiplexerForm, form, Function.comp_def, dataPort, enablePort, counts, select,
    sized_eq_of_wide wide]

/-- Demultiplexers of one name have one header. -/
theorem demultiplexer_unit_eq (same : (demultiplexerForm a).name = (demultiplexerForm b).name)
    (architecture : Architecture)
    : (demultiplexerForm a).unit architecture = (demultiplexerForm b).unit architecture := by
  have texts := congrArg String.toList same
  simp [demultiplexerForm, form, toString] at texts
  obtain ⟨wide, select, -⟩ := busSuffix_inj (suffixes_isSuffix a) (suffixes_isSuffix b) texts
  have counts : count a = count b := congrArg (Nat.pow 2) select
  refine Form.unit_eq same (dataWidthParameters_names_eq_of_wide wide) ?_
  simp [Form.unit, demultiplexerForm, form, Function.comp_def, dataPort, enablePort, counts, select,
    sized_eq_of_wide wide]

/-- Decoders of one name have one header. -/
theorem decoder_unit_eq (same : (decoderForm a).name = (decoderForm b).name)
    (architecture : Architecture)
    : (decoderForm a).unit architecture = (decoderForm b).unit architecture := by
  have texts := congrArg String.toList same
  simp [decoderForm, form, toString] at texts
  have numbers := Text.digits_suffix_inj (suffixes_isSuffix a) (suffixes_isSuffix b) texts
  have select := selectBits_eq_of_count numbers.1
  refine Form.unit_eq same rfl ?_
  simp [Form.unit, decoderForm, form, Function.comp_def, enablePort, numbers.1, select]

/-- Priority encoders of one name have one header. -/
theorem priorityEncoder_unit_eq
    (same : (priorityEncoderForm a).name = (priorityEncoderForm b).name)
    (architecture : Architecture)
    : (priorityEncoderForm a).unit architecture = (priorityEncoderForm b).unit architecture := by
  have texts := congrArg String.toList same
  simp [priorityEncoderForm, form, toString] at texts
  have numbers :=
    Text.digits_suffix_inj (floatingSuffix_isSuffix a) (floatingSuffix_isSuffix b) texts
  have select := selectBits_eq_of_count numbers.1
  refine Form.unit_eq same rfl ?_
  simp [Form.unit, priorityEncoderForm, form, numbers.1, select]

end Selector

/-- The name of a register tells whether it has several bits. -/
theorem Register.wide_of_name {a b : Attributes} (same : (form a).name = (form b).name)
    : 1 < a.width ↔ 1 < b.width := by
  simp only [form] at same
  split at same <;> split at same
  · next wideA wideB => exact iff_of_true wideA wideB
  · exact absurd same (by decide)
  · exact absurd same (by decide)
  · next wideA wideB => exact iff_of_false wideA wideB

/-- Registers of one name have one header. -/
theorem Register.unit_eq {a b : Attributes} (same : (form a).name = (form b).name)
    (architecture : Architecture)
    : (form a).unit architecture = (form b).unit architecture := by
  have wide := wide_of_name same
  refine Form.unit_eq same (dataWidthParameters_names_eq_of_wide wide) ?_
  simp [Form.unit, form, sized_eq_of_wide wide]

theorem Primitive.eq_of_name {a b : Primitive} (same : a.name = b.name) : a = b := by
  cases a <;> cases b <;> first | rfl | exact absurd same (by decide)

namespace Realization

/-- Definitions of built-in components that share a name and an origin have one header. -/
theorem ofPrimitive_unit_eq {type other : Primitive} {a b : Attributes}
    (instantiated : (ofPrimitive type a).isInlined = false)
    (same : (ofPrimitive type a).form.key = (ofPrimitive other b).form.key)
    (architecture : Architecture)
    : (ofPrimitive type a).form.unit architecture
      = (ofPrimitive other b).form.unit architecture := by
  have origin := congrArg Generation.Handled.origin same
  simp only [Form.key, ofPrimitive_origin] at origin
  obtain rfl := Primitive.eq_of_name origin
  have name := congrArg Generation.Handled.key same
  cases type with
  | multiplexer => exact Selector.multiplexer_unit_eq name architecture
  | demultiplexer => exact Selector.demultiplexer_unit_eq name architecture
  | decoder => exact Selector.decoder_unit_eq name architecture
  | priorityEncoder => exact Selector.priorityEncoder_unit_eq name architecture
  | register => exact Register.unit_eq name architecture
  | and | or | xor | nand | nor | xnor | not | constant => cases instantiated

/-- A definition with the origin of a circuit is that of the circuit. -/
theorem Resolves.form_eq_netlist {library : Library} {hierarchy : Hierarchy} {mode : ClockMode}
    {dialect : Dialect} {component : Component} {realization : Realization} {netlist : Netlist}
    (sound : hierarchy.Sound library)
    (resolves : Resolves hierarchy mode dialect component realization)
    (member : netlist ∈ hierarchy.netlists)
    (origin : realization.form.origin = (netlist.form mode).origin)
    : realization.form = netlist.form mode := by
  cases resolves with
  | primitive =>
      rw [ofPrimitive_origin] at origin
      exact absurd origin.symm (netlist.origin_ne_name mode _)
  | subcircuit _ found =>
      rw [← sound.eq_of_origin (Netlist.ofCircuit?_mem found).1 member origin]
      rfl
  | external => exact absurd origin.symm (netlist.origin_ne_entity mode _)

/-- Definitions that share a name and an origin have one header, whatever components they were made
for.
-/
theorem Resolves.unit_eq {library : Library} {hierarchy : Hierarchy} {mode : ClockMode}
    {dialect : Dialect} {component other : Component} {realization another : Realization}
    (sound : hierarchy.Sound library) (owns : library.OwnsEntities)
    (owned : component.Owned library) (otherOwned : other.Owned library)
    (resolves : Resolves hierarchy mode dialect component realization)
    (otherResolves : Resolves hierarchy mode dialect other another)
    (instantiated : realization.isInlined = false)
    (same : realization.form.key = another.form.key) (architecture : Architecture)
    : realization.form.unit architecture = another.form.unit architecture := by
  have origin : realization.form.origin = another.form.origin :=
    congrArg Generation.Handled.origin same
  cases otherResolves with
  | subcircuit _ found =>
      rw [resolves.form_eq_netlist sound (Netlist.ofCircuit?_mem found).1 origin]
      rfl
  | primitive =>
      rw [ofPrimitive_origin] at origin
      cases resolves with
      | primitive => exact ofPrimitive_unit_eq instantiated same architecture
      | subcircuit => exact absurd origin (Netlist.origin_ne_name _ _ _)
      | external => exact absurd origin (ExternalEntity.origin_ne_name _ _)
  | external otherKind =>
      cases resolves with
      | primitive =>
          rw [ofPrimitive_origin] at origin
          exact absurd origin.symm (ExternalEntity.origin_ne_name _ _)
      | subcircuit => exact absurd origin (Netlist.origin_ne_entity _ _ _)
      | external kind =>
          have name := ExternalEntity.name_of_origin origin
          rw [owns.eq_of_name (owned _ kind) (otherOwned _ otherKind) name]

end Realization

end SchematicHdl
