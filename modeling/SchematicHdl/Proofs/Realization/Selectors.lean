import Mathlib.Data.List.Nodup
import SchematicHdl.Proofs.Hdl.Execution
import SchematicHdl.Proofs.Realization.Form
import SchematicHdl.Proofs.Respelling
import SchematicHdl.Realization.Selector

/-! What selecting components compute. A multiplexer passes on the data input with the number that
its select input has, a demultiplexer and a decoder drive the output with that number, and a
component that is switched off gives all its outputs one level.
-/

namespace SchematicHdl

open Hdl (Architecture BitPlace Expr Level SignalDecl Statement Valuation Width)
open Identifier (numbered)

-----------------------------------------------------------------------------------------
-- Levels of a unit
-----------------------------------------------------------------------------------------

/-- Levels of the names in the unit of a form. -/
def Form.valuation (form : Form) (architecture : Architecture) (level : BitPlace → Level)
    : Valuation :=
  (form.unit architecture).valuation form.parameters level

theorem Form.declarations_unit (form : Form) (architecture : Architecture)
    : (form.unit architecture).declarations
      = form.ports.map (fun port => (port.name, port.declared))
          ++ architecture.signals.map (fun signal => (signal.name, signal.width)) := by
  simp [Hdl.DesignUnit.declarations, unit, ports, drivingPorts, Port.declaration,
    Function.comp_def]

/-- The names of a unit are as wide as its ports and signals, where each name has one width. -/
theorem Form.width_valuation {form : Form} {architecture : Architecture}
    {level : BitPlace → Level} (sized : form.Sized) {names : List String} {width : String → Nat}
    (ports
      : form.ports.map (fun port => (port.name, port.width))
        = names.map (fun name => (name, width name)))
    (signals
      : ∀ signal ∈ architecture.signals,
          signal.width.value? form.parameters = some (width signal.name))
    {name : String}
    (declared : name ∈ names ++ architecture.signals.map SignalDecl.name)
    : (form.valuation architecture level).width name = width name := by
  have listed
      : ((form.unit architecture).scope form.parameters).names
        = (names ++ architecture.signals.map SignalDecl.name).map (fun name =>
            (name, width name)) := by
    have known
        : form.ports.filterMap (fun port =>
            (port.declared.value? form.parameters).map (fun bits => (port.name, bits)))
          = form.ports.map (fun port => (port.name, port.width)) := by
      rw [← List.filterMap_eq_map]
      refine List.filterMap_congr fun port member => ?_
      rw [sized port member]
      rfl
    have given
        : architecture.signals.filterMap (fun signal =>
            (signal.width.value? form.parameters).map (fun bits => (signal.name, bits)))
          = architecture.signals.map (fun signal => (signal.name, width signal.name)) := by
      rw [← List.filterMap_eq_map]
      refine List.filterMap_congr fun signal member => ?_
      rw [signals signal member]
      rfl
    rw [Hdl.DesignUnit.scope, declarations_unit, List.filterMap_append, List.filterMap_map,
      List.filterMap_map, List.map_append, List.map_map, ← ports]
    exact congrArg₂ (· ++ ·) known given
  refine Hdl.DesignUnit.width_valuation ?_ ?_
  · rw [listed]
    exact List.forall_mem_map.mpr fun _ _ => rfl
  · rw [listed]
    simpa [Function.comp_def] using declared

namespace Selector

variable {attributes : Attributes}

-----------------------------------------------------------------------------------------
-- Widths of the names
-----------------------------------------------------------------------------------------

@[simp] theorem dataPort_name (stem : String) (attributes : Attributes) (i : Nat)
    : (dataPort stem attributes i).name = numbered stem i :=
  rfl

@[simp] theorem dataPort_width (stem : String) (attributes : Attributes) (i : Nat)
    : (dataPort stem attributes i).width = attributes.width :=
  rfl

/-- Width of a name in the unit of a selecting component whose other names all have one width. -/
def nameWidth (attributes : Attributes) (data : Nat) (name : String) : Nat :=
  if name = "Sel" then attributes.selectBits else if name = "Enable" then 1 else data

/-- A numbered name is no other name. -/
theorem numbered_ne {name : String} (unnumbered : Identifier.IsUnnumbered (Text.foldCase name))
    (stem : String) (n : Nat)
    : numbered stem n ≠ name := fun same =>
  Identifier.foldCase_numbered_ne unnumbered stem n (congrArg Text.foldCase same)

theorem numbered_inj {stem : String} {n m : Nat} (same : numbered stem n = numbered stem m)
    : n = m :=
  (Identifier.foldCase_numbered_inj (congrArg Text.foldCase same)).2

@[simp] theorem nameWidth_select (attributes : Attributes) (data : Nat)
    : nameWidth attributes data "Sel" = attributes.selectBits :=
  rfl

@[simp] theorem nameWidth_enable (attributes : Attributes) (data : Nat)
    : nameWidth attributes data "Enable" = 1 :=
  rfl

@[simp] theorem nameWidth_other {name : String} (select : name ≠ "Sel") (enable : name ≠ "Enable")
    (data : Nat)
    : nameWidth attributes data name = data := by
  simp [nameWidth, select, enable]

@[simp] theorem nameWidth_numbered (data : Nat) (stem : String) (n : Nat)
    : nameWidth attributes data (numbered stem n) = data := by
  exact
    nameWidth_other (numbered_ne (by decide +kernel) stem n)
      (numbered_ne (by decide +kernel) stem n) data

/-- Names of numbered ports. -/
def numberedNames (attributes : Attributes) (stem : String) : List String :=
  (List.range (count attributes)).map (numbered stem)

theorem numbered_mem {i : Nat} (inside : i < count attributes) (stem : String)
    : numbered stem i ∈ numberedNames attributes stem :=
  List.mem_map_of_mem (List.mem_range.mpr inside)

theorem not_mem_numberedNames {name : String}
    (unnumbered : Identifier.IsUnnumbered (Text.foldCase name)) (stem : String)
    : name ∉ numberedNames attributes stem := by
  intro listed
  obtain ⟨n, -, same⟩ := List.mem_map.mp listed
  exact numbered_ne unnumbered stem n same

-----------------------------------------------------------------------------------------
-- Control inputs
-----------------------------------------------------------------------------------------

/-- The enable input is low or high, and so are the bits of the select input, which are read as a
number.
-/
structure Controlled (attributes : Attributes) (enable : Bool) (selected : Nat)
    (valuation : Valuation)
    : Prop where
  enabled : valuation.levels "Enable" = [.ofBool enable]
  reads : Level.unsigned? (valuation.levels "Sel") = some selected
  wide : valuation.width "Sel" = attributes.selectBits

namespace Controlled

variable {enable : Bool} {selected : Nat} {valuation after : Valuation}

/-- The select input has a number for each selectable end, and no others. -/
theorem lt_count (controlled : Controlled attributes enable selected valuation)
    : selected < count attributes := by
  have fits := (Level.eq_digits_of_unsigned? controlled.reads).2
  rwa [Valuation.length_levels, controlled.wide] at fits

theorem holds?_selects (controlled : Controlled attributes enable selected valuation) {i : Nat}
    (inside : i < count attributes)
    : (selects attributes i).holds? valuation = some (selected == i) := by
  have digits := (Level.eq_digits_of_unsigned? controlled.reads).1
  rw [Valuation.length_levels, controlled.wide] at digits
  exact
    Expr.holds?_equals_digits rfl rfl ((Valuation.eval_ref _ _).trans digits)
      (Expr.eval_const _ _ _) controlled.lt_count inside

theorem congr (controlled : Controlled attributes enable selected valuation)
    {names : List String} (same : valuation.SameOutside names after)
    (notEnable : "Enable" ∉ names) (notSelect : "Sel" ∉ names)
    : Controlled attributes enable selected after where
  enabled := (same.levels_eq notEnable).trans controlled.enabled
  reads := (congrArg Level.unsigned? (same.levels_eq notSelect)).trans controlled.reads
  wide := (congrFun same.width_eq _).trans controlled.wide

end Controlled

-----------------------------------------------------------------------------------------
-- Numbered outputs
-----------------------------------------------------------------------------------------

/-- Drives each numbered output with one value while the component is switched off, with another one
if the output is selected, and else with a third one.
-/
def routing (attributes : Attributes) (stem : String) (off on rest : Expr) : List Statement :=
  (List.range (count attributes)).map (fun i =>
    .conditional (.ref (numbered stem i)) [(.isLow "Enable", off), (selects attributes i, on)] rest)

theorem Controlled.choose? {enable : Bool} {selected i : Nat} {valuation : Valuation}
    (controlled : Controlled attributes enable selected valuation) (inside : i < count attributes)
    (off on rest : Expr)
    : Expr.choose? valuation rest [(.isLow "Enable", off), (selects attributes i, on)]
      = some (if enable then if selected = i then on else rest else off) := by
  simp only [Expr.choose?, Expr.holds?_isLow controlled.enabled, controlled.holds?_selects inside]
  cases enable with
  | false => rfl
  | true => by_cases here : selected = i <;> simp [here]

/-- The outputs get the levels of their values, all of them from the levels at the start. -/
theorem routing_performs {enable : Bool} {selected width : Nat} {before : Valuation}
    (controlled : Controlled attributes enable selected before) {stem : String}
    {off on rest : Expr} {offLevels onLevels restLevels : List Level} (positive : 0 < width)
    (wide : ∀ i < count attributes, before.width (numbered stem i) = width)
    (steadyOff : off.Steady (numberedNames attributes stem) before offLevels)
    (steadyOn : on.Steady (numberedNames attributes stem) before onLevels)
    (steadyRest : rest.Steady (numberedNames attributes stem) before restLevels)
    (lengths : offLevels.length = width ∧ onLevels.length = width ∧ restLevels.length = width)
    : ∃ after,
        (routing attributes stem off on rest).foldlM Statement.perform? before = some after
        ∧ ∀ i < count attributes,
            after.levels (numbered stem i)
            = if enable then if selected = i then onLevels else restLevels else offLevels := by
  have distinct : (numberedNames attributes stem).Nodup :=
    List.Nodup.map (fun _ _ => numbered_inj) List.nodup_range
  have notEnable : "Enable" ∉ numberedNames attributes stem :=
    not_mem_numberedNames (by decide +kernel) stem
  have notSelect : "Sel" ∉ numberedNames attributes stem :=
    not_mem_numberedNames (by decide +kernel) stem
  let value (i : Nat) : Expr := if enable then if selected = i then on else rest else off
  let levels (i : Nat) : List Level :=
    if enable then if selected = i then onLevels else restLevels else offLevels
  have steady (i : Nat) : (value i).Steady (numberedNames attributes stem) before (levels i) := by
    simp only [value, levels]
    split
    · split <;> assumption
    · assumption
  have length (i : Nat) : (levels i).length = width := by
    simp only [levels]
    split
    · split
      · exact lengths.2.1
      · exact lengths.2.2
    · exact lengths.1
  have each
      : ∀ i ∈ List.range (count attributes),
          (levels i).length = before.width (numbered stem i)
          ∧ ∀ valuation,
              before.SameOutside (numberedNames attributes stem) valuation
              → (Statement.conditional (.ref (numbered stem i))
                    [(.isLow "Enable", off), (selects attributes i, on)] rest).perform? valuation
                = some (valuation.put (numbered stem i) (levels i)) := by
    intro i listed
    have inside := List.mem_range.mp listed
    have sizes := (length i).trans (wide i inside).symm
    refine ⟨sizes, fun valuation same => ?_⟩
    obtain ⟨sized, evaluates⟩ := steady i valuation same
    have chosen := (controlled.congr same notEnable notSelect).choose? inside off on rest
    have kept : valuation.width (numbered stem i) = before.width (numbered stem i) :=
      congrFun same.width_eq _
    exact
      Statement.perform?_conditional chosen sized evaluates (sizes.trans kept.symm)
        (by rwa [kept, wide i inside])
  obtain ⟨after, ends, assigned, -⟩ :=
    Hdl.performs_each distinct (fun _ listed => List.mem_map_of_mem listed) each (.refl _ before)
  exact ⟨after, ends, fun i inside => assigned i (List.mem_range.mpr inside)⟩

-----------------------------------------------------------------------------------------
-- Multiplexers
-----------------------------------------------------------------------------------------

/-- Levels of the names of a multiplexer. -/
def multiplexerLevels (attributes : Attributes) (level : BitPlace → Level) : Valuation :=
  (multiplexerForm attributes).valuation (multiplexerArchitecture attributes) level

theorem multiplexer_ports (attributes : Attributes)
    : (multiplexerForm attributes).ports.map (fun port => (port.name, port.width))
      = (numberedNames attributes "MuxIn" ++ ["Sel", "Enable", "MuxOut"]).map (fun name =>
          (name, nameWidth attributes attributes.width name)) := by
  simp [Form.ports, Form.drivingPorts, multiplexerForm, form, numberedNames, Function.comp_def,
    Port.plain, Port.sizedBy, Port.tiedTo, enablePort]

theorem multiplexer_width (supported : Primitive.multiplexer.shapeFault? attributes = none)
    (level : BitPlace → Level) {name : String}
    (declared
      : name ∈ (numberedNames attributes "MuxIn" ++ ["Sel", "Enable", "MuxOut"])
          ++ ["s_selected_vector"])
    : (multiplexerLevels attributes level).width name
      = nameWidth attributes attributes.width name := by
  have sized : (multiplexerForm attributes).Sized := Realization.ofPrimitive_sized supported rfl
  have vector
      : ∀ signal ∈ (multiplexerArchitecture attributes).signals,
          signal.width.value? (multiplexerForm attributes).parameters
          = some (nameWidth attributes attributes.width signal.name) :=
    List.forall_mem_singleton.mpr (value?_dataWidth (Primitive.width_pos supported rfl))
  exact Form.width_valuation sized (multiplexer_ports attributes) vector declared

theorem muxIn_eq (i : Nat) : s!"MuxIn_{i}" = numbered "MuxIn" i :=
  congrArg (· ++ toString i) (show "MuxIn_" = "MuxIn" ++ "_" by decide +kernel)

/-- The arms of a multiplexer. -/
def inputArms (attributes : Attributes) : List (Expr × Expr) :=
  (List.range (count attributes - 1)).map (fun i =>
    (selects attributes i, .ref (numbered "MuxIn" i)))

/-- A multiplexer selects among its inputs, and then it decides whether it is switched on. -/
theorem multiplexer_perform? (attributes : Attributes) (valuation : Valuation)
    : (multiplexerArchitecture attributes).perform? valuation
      = [
          Statement.conditional (.ref "s_selected_vector") (inputArms attributes)
            (.ref (numbered "MuxIn" (count attributes - 1))),
          .conditional (.ref "MuxOut")
            [(.isLow "Enable", filledData attributes (disabledBit attributes))]
            (.ref "s_selected_vector")
        ].foldlM Statement.perform? valuation := by
  rw [Architecture.perform?, multiplexerArchitecture]
  simp only [muxIn_eq, List.foldlM_cons, Statement.perform?_select, Hdl.Selection.decisions,
    List.map_map]
  rfl

/-- The arms of a multiplexer choose the selected input. The last input has no arm, but it is all
that is left when no arm holds.
-/
theorem inputArms_choose {enable : Bool} {selected : Nat} {valuation : Valuation}
    (controlled : Controlled attributes enable selected valuation)
    : Expr.choose? valuation (.ref (numbered "MuxIn" (count attributes - 1)))
        (inputArms attributes)
      = some (.ref (numbered "MuxIn" selected)) := by
  have decided
      : ∀ i ∈ List.range (count attributes - 1),
          (selects attributes i).holds? valuation = some (selected == i) := fun i listed =>
    controlled.holds?_selects (Nat.lt_of_lt_of_le (List.mem_range.mp listed) (Nat.sub_le _ _))
  rw [inputArms, Expr.choose?_map decided]
  cases found : (List.range (count attributes - 1)).find? (fun i => selected == i) with
  | some i =>
      obtain rfl : selected = i := eq_of_beq (List.find?_some found :)
      rfl
  | none =>
      have later : ¬selected < count attributes - 1 := fun inside =>
        List.find?_eq_none.mp found selected (List.mem_range.mpr inside) (beq_self_eq_true selected)
      have last : count attributes - 1 = selected := by
        have inside := controlled.lt_count
        omega
      rw [last]
      rfl

/-- A data signal filled with one bit has that many levels. -/
theorem filledData_steady (positive : 0 < attributes.width) {names : List String}
    {before : Valuation} (generics : before.generics = dataWidthParameters attributes.width)
    (bit : Hdl.Bit)
    : (filledData attributes bit).Steady names before
        (List.replicate attributes.width (.ofBit bit)) :=
  Expr.steady_filled (generics ▸ value?_dataWidth positive) bit

/-- An output that is switched off by the enable input gets the levels of one of two values. -/
theorem switch_performs {enable : Bool} {valuation : Valuation} {name : String} {off on : Expr}
    {offLevels onLevels : List Level} (enabled : valuation.levels "Enable" = [.ofBool enable])
    (steadyOff : off.Steady [] valuation offLevels) (steadyOn : on.Steady [] valuation onLevels)
    (offLength : offLevels.length = valuation.width name)
    (onLength : onLevels.length = valuation.width name) (positive : 0 < valuation.width name)
    : ∃ after,
        (Statement.conditional (.ref name) [(.isLow "Enable", off)] on).perform? valuation
          = some after
        ∧ after.levels name = if enable then onLevels else offLevels := by
  have chosen
      : Expr.choose? valuation on [(.isLow "Enable", off)]
        = some (if enable then on else off) := by
    rw [Expr.choose?, Expr.holds?_isLow enabled]
    cases enable <;> rfl
  cases enable with
  | true =>
      obtain ⟨sized, evaluates⟩ := steadyOn valuation (.refl _ _)
      exact
        ⟨_, Statement.perform?_conditional chosen sized evaluates onLength positive,
          Valuation.levels_put onLength⟩
  | false =>
      obtain ⟨sized, evaluates⟩ := steadyOff valuation (.refl _ _)
      exact
        ⟨_, Statement.perform?_conditional chosen sized evaluates offLength positive,
          Valuation.levels_put offLength⟩

/-- A multiplexer passes on the selected input. -/
theorem multiplexer_performs (supported : Primitive.multiplexer.shapeFault? attributes = none)
    {level : BitPlace → Level} {enable : Bool} {selected : Nat}
    (controlled : Controlled attributes enable selected (multiplexerLevels attributes level))
    : ∃ after,
        (multiplexerArchitecture attributes).perform? (multiplexerLevels attributes level)
          = some after
        ∧ after.levels "MuxOut"
          = if enable then (multiplexerLevels attributes level).levels (numbered "MuxIn" selected)
            else List.replicate attributes.width (.ofBit (disabledBit attributes)) := by
  have positive := Primitive.width_pos supported rfl
  have wide := @multiplexer_width attributes supported level
  rw [multiplexer_perform?]
  set before := multiplexerLevels attributes level
  have vector : before.width "s_selected_vector" = attributes.width := wide (by simp)
  have length : (before.levels (numbered "MuxIn" selected)).length = attributes.width := by
    rw [Valuation.length_levels, wide, nameWidth_numbered]
    simp [numbered_mem controlled.lt_count]
  have first :=
    Statement.perform?_conditional (inputArms_choose controlled) rfl (Valuation.eval_ref _ _)
      (length.trans vector.symm) (by rwa [vector])
  let middle := before.put "s_selected_vector" (before.levels (numbered "MuxIn" selected))
  have held : middle.levels "s_selected_vector" = before.levels (numbered "MuxIn" selected) :=
    Valuation.levels_put (length.trans vector.symm)
  have enabled : middle.levels "Enable" = [.ofBool enable] :=
    (Valuation.levels_put_of_ne (by decide)).trans controlled.enabled
  have generics : middle.generics = dataWidthParameters attributes.width := rfl
  have output : middle.width "MuxOut" = attributes.width := by
    rw [Valuation.put_width]
    exact wide (by simp)
  obtain ⟨after, second, shown⟩ :=
    switch_performs enabled (filledData_steady positive generics (disabledBit attributes))
      (held ▸ Expr.steady_ref List.not_mem_nil middle)
      (List.length_replicate.trans output.symm) (length.trans output.symm) (by rwa [output])
  refine ⟨after, ?_, shown⟩
  rw [List.foldlM_cons, first, Option.bind_eq_bind, Option.bind_some, List.foldlM_cons, second]
  rfl

-----------------------------------------------------------------------------------------
-- Demultiplexers
-----------------------------------------------------------------------------------------

/-- Levels of the names of a demultiplexer. -/
def demultiplexerLevels (attributes : Attributes) (level : BitPlace → Level) : Valuation :=
  (demultiplexerForm attributes).valuation (demultiplexerArchitecture attributes) level

theorem demultiplexer_ports (attributes : Attributes)
    : (demultiplexerForm attributes).ports.map (fun port => (port.name, port.width))
      = (["DemuxIn", "Sel", "Enable"] ++ numberedNames attributes "DemuxOut").map (fun name =>
          (name, nameWidth attributes attributes.width name)) := by
  simp [Form.ports, Form.drivingPorts, demultiplexerForm, form, numberedNames, Function.comp_def,
    Port.plain, Port.sizedBy, Port.tiedTo, enablePort]

theorem demultiplexer_width (supported : Primitive.demultiplexer.shapeFault? attributes = none)
    (level : BitPlace → Level) {name : String}
    (declared : name ∈ ["DemuxIn", "Sel", "Enable"] ++ numberedNames attributes "DemuxOut")
    : (demultiplexerLevels attributes level).width name
      = nameWidth attributes attributes.width name :=
  Form.width_valuation (Realization.ofPrimitive_sized supported rfl)
    (demultiplexer_ports attributes) (List.forall_mem_nil _) (List.mem_append_left _ declared)

theorem demuxOut_eq (i : Nat) : s!"DemuxOut_{i}" = numbered "DemuxOut" i :=
  congrArg (· ++ toString i) (show "DemuxOut_" = "DemuxOut" ++ "_" by decide +kernel)

/-- A demultiplexer drives the selected output with its input. -/
theorem demultiplexer_performs (supported : Primitive.demultiplexer.shapeFault? attributes = none)
    {level : BitPlace → Level} {enable : Bool} {selected : Nat}
    (controlled : Controlled attributes enable selected (demultiplexerLevels attributes level))
    : ∃ after,
        (demultiplexerArchitecture attributes).perform? (demultiplexerLevels attributes level)
          = some after
        ∧ ∀ i < count attributes,
            after.levels (numbered "DemuxOut" i)
            = if enable then
                if selected = i then (demultiplexerLevels attributes level).levels "DemuxIn"
                else List.replicate attributes.width (.ofBit (unselectedBit attributes))
              else List.replicate attributes.width (.ofBit (disabledBit attributes)) := by
  have positive := Primitive.width_pos supported rfl
  have generics
      : (demultiplexerLevels attributes level).generics = dataWidthParameters attributes.width :=
    rfl
  have outside : "DemuxIn" ∉ numberedNames attributes "DemuxOut" :=
    not_mem_numberedNames (by decide +kernel) "DemuxOut"
  have routed
      : (demultiplexerArchitecture attributes).statements
        = routing attributes "DemuxOut" (filledData attributes (disabledBit attributes))
            (.ref "DemuxIn") (filledData attributes (unselectedBit attributes)) := by
    simp only [demultiplexerArchitecture, routing, demuxOut_eq]
  rw [Architecture.perform?, routed]
  refine
    routing_performs controlled positive (fun i inside => ?_)
      (filledData_steady positive generics _) (Expr.steady_ref outside _)
      (filledData_steady positive generics _)
      ⟨List.length_replicate, ?_, List.length_replicate⟩
  · rw [demultiplexer_width supported, nameWidth_numbered]
    exact List.mem_append_right _ (numbered_mem inside _)
  · rw [Valuation.length_levels]
    exact demultiplexer_width supported level (List.mem_append_left _ List.mem_cons_self)

-----------------------------------------------------------------------------------------
-- Decoders
-----------------------------------------------------------------------------------------

/-- Levels of the names of a decoder. -/
def decoderLevels (attributes : Attributes) (level : BitPlace → Level) : Valuation :=
  (decoderForm attributes).valuation (decoderArchitecture attributes) level

theorem decoderOut_eq (i : Nat) : s!"DecoderOut_{i}" = numbered "DecoderOut" i :=
  congrArg (· ++ toString i) (show "DecoderOut_" = "DecoderOut" ++ "_" by decide +kernel)

theorem decoder_ports (attributes : Attributes)
    : (decoderForm attributes).ports.map (fun port => (port.name, port.width))
      = (["Sel", "Enable"] ++ numberedNames attributes "DecoderOut").map (fun name =>
          (name, nameWidth attributes 1 name)) := by
  simp only [decoderForm, decoderOut_eq]
  simp [Form.ports, Form.drivingPorts, form, numberedNames, Function.comp_def, Port.plain,
    Port.tiedTo, enablePort]

theorem decoder_width (supported : Primitive.decoder.shapeFault? attributes = none)
    (level : BitPlace → Level) {name : String}
    (declared : name ∈ ["Sel", "Enable"] ++ numberedNames attributes "DecoderOut")
    : (decoderLevels attributes level).width name = nameWidth attributes 1 name :=
  Form.width_valuation (Realization.ofPrimitive_sized supported rfl) (decoder_ports attributes)
    (List.forall_mem_nil _) (List.mem_append_left _ declared)

/-- A decoder drives the selected output high. -/
theorem decoder_performs (supported : Primitive.decoder.shapeFault? attributes = none)
    {level : BitPlace → Level} {enable : Bool} {selected : Nat}
    (controlled : Controlled attributes enable selected (decoderLevels attributes level))
    : ∃ after,
        (decoderArchitecture attributes).perform? (decoderLevels attributes level) = some after
        ∧ ∀ i < count attributes,
            after.levels (numbered "DecoderOut" i)
            = if enable then
                if selected = i then [.high] else [.ofBit (unselectedBit attributes)]
              else [.ofBit (disabledBit attributes)] := by
  have steady (bit : Hdl.Bit)
      : (Expr.bit bit).Steady (numberedNames attributes "DecoderOut")
          (decoderLevels attributes level) [.ofBit bit] := by
    have single : (Width.fixed 1).value? (decoderLevels attributes level).generics = some 1 := rfl
    exact Expr.steady_filled single bit
  have routed
      : (decoderArchitecture attributes).statements
        = routing attributes "DecoderOut" (.bit (disabledBit attributes)) (.bit .one)
            (.bit (unselectedBit attributes)) := by
    simp only [decoderArchitecture, routing, decoderOut_eq]
  rw [Architecture.perform?, routed]
  refine
    routing_performs controlled Nat.one_pos (fun i inside => ?_) (steady _) (steady .one) (steady _)
      ⟨rfl, rfl, rfl⟩
  rw [decoder_width supported, nameWidth_numbered]
  exact List.mem_append_right _ (numbered_mem inside _)

-----------------------------------------------------------------------------------------
-- Selection
-----------------------------------------------------------------------------------------

/-- What the outputs of a selecting component carry after its statements, by the enable input and
the number that the select input has.
-/
inductive Routes (attributes : Attributes) (enable : Bool) (selected : Nat)
    (before after : Valuation)
    : Primitive → Prop
  | multiplexer
    (output
      : after.levels "MuxOut"
        = if enable then before.levels s!"MuxIn_{selected}"
          else List.replicate attributes.width (.ofBit (disabledBit attributes)))
    : Routes attributes enable selected before after .multiplexer
  | demultiplexer
    (outputs
      : ∀ i < count attributes,
          after.levels s!"DemuxOut_{i}"
          = if enable then
              if selected = i then before.levels "DemuxIn"
              else List.replicate attributes.width (.ofBit (unselectedBit attributes))
            else List.replicate attributes.width (.ofBit (disabledBit attributes)))
    : Routes attributes enable selected before after .demultiplexer
  | decoder
    (outputs
      : ∀ i < count attributes,
          after.levels s!"DecoderOut_{i}"
          = if enable then
              if selected = i then [.high] else [.ofBit (unselectedBit attributes)]
            else [.ofBit (disabledBit attributes)])
    : Routes attributes enable selected before after .decoder

/-- The statements of a multiplexer, a demultiplexer or a decoder with a supported configuration
select. From any levels with low or high control inputs they can be carried out to their end; the
number of the select input is that of an input or output, the last one of a multiplexer included,
and the outputs carry what it selects, or what they carry while the component is switched off.
-/
theorem selectors_route {type : Primitive} {attributes : Attributes}
    (selector : type ∈ [Primitive.multiplexer, .demultiplexer, .decoder])
    (supported : type.shapeFault? attributes = none)
    : ∃ form architecture,
        Realization.ofPrimitive type attributes = ⟨form, .builtIn architecture⟩
        ∧ ∀ level before enable selected,
          form.valuation architecture level = before
          → before.levels "Enable" = [.ofBool enable]
          → Level.unsigned? (before.levels "Sel") = some selected
          → selected < count attributes
            ∧ ∃ after,
              architecture.perform? before = some after
              ∧ Routes attributes enable selected before after type := by
  simp only [List.mem_cons, List.not_mem_nil, or_false] at selector
  rcases selector with rfl | rfl | rfl
  all_goals
    refine ⟨_, _, rfl, ?_⟩
    rintro level _ enable selected rfl enabled reads
  · have controlled : Controlled attributes enable selected (multiplexerLevels attributes level) :=
      ⟨enabled, reads, multiplexer_width supported level (by simp)⟩
    obtain ⟨after, performed, output⟩ := multiplexer_performs supported controlled
    exact ⟨controlled.lt_count, after, performed, .multiplexer (muxIn_eq selected ▸ output)⟩
  · have controlled
        : Controlled attributes enable selected (demultiplexerLevels attributes level) :=
      ⟨enabled, reads, demultiplexer_width supported level (by simp)⟩
    obtain ⟨after, performed, outputs⟩ := demultiplexer_performs supported controlled
    refine ⟨controlled.lt_count, after, performed, .demultiplexer fun i inside => ?_⟩
    rw [demuxOut_eq]
    exact outputs i inside
  · have controlled : Controlled attributes enable selected (decoderLevels attributes level) :=
      ⟨enabled, reads, decoder_width supported level (by simp)⟩
    obtain ⟨after, performed, outputs⟩ := decoder_performs supported controlled
    refine ⟨controlled.lt_count, after, performed, .decoder fun i inside => ?_⟩
    rw [decoderOut_eq]
    exact outputs i inside

/-- A multiplexer of two bits with four inputs and an enable input. -/
def wideAttributes : Attributes :=
  .ofList [("enable", .flag true), ("select", .number 2), ("width", .number 2)]

/-- All inputs are high, but for the upper bit of the last data input, which floats. -/
def floatingLevel (place : BitPlace) : Level :=
  if place = ⟨"MuxIn_3", 1⟩ then .floating else .high

/-- The last input of the multiplexer is passed on, although no arm asks for it. -/
theorem lastInput_routes
    : ∃ after,
        (multiplexerArchitecture wideAttributes).perform?
            ((multiplexerForm wideAttributes).valuation (multiplexerArchitecture wideAttributes)
              floatingLevel)
          = some after
        ∧ after.levels "MuxOut" = [.high, .floating] := by
  obtain ⟨form, architecture, realized, routes⟩ :=
    @selectors_route .multiplexer wideAttributes List.mem_cons_self (by decide +kernel)
  obtain ⟨rfl, same⟩ := Realization.mk.inj realized
  obtain rfl := Definition.builtIn.inj same
  obtain ⟨-, after, performed, routed⟩ :=
    routes floatingLevel _ true 3 rfl (by decide +kernel) (by decide +kernel)
  cases routed with
  | multiplexer output =>
      exact ⟨after, performed, output.trans (by decide +kernel)⟩

end Selector

end SchematicHdl
