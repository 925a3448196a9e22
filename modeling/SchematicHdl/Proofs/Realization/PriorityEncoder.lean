import SchematicHdl.Proofs.Realization.Selectors

/-! What a priority encoder computes: the number of the highest active input, and whether there is
one. The number is found by asking for the inputs from the highest down to the second one. Finding
nothing stands for the lowest input, and a signal of its own tells that from no active input.
-/

namespace SchematicHdl.Selector

open Hdl (Architecture BitPlace Expr Level Statement Valuation)

variable {attributes : Attributes}

-----------------------------------------------------------------------------------------
-- The highest active input
-----------------------------------------------------------------------------------------

/-- An input is active, and all higher ones are not. -/
structure IsHighest (inputs : List Bool) (highest : Nat) : Prop where
  active : inputs[highest]? = some true
  maximal : ∀ higher, highest < higher → inputs[higher]? ≠ some true

/-- Whether the input above a position is active. -/
def activeAbove (inputs : List Bool) (position : Nat) : Bool :=
  inputs.getD (position + 1) false

theorem activeAbove_iff {inputs : List Bool} {position : Nat}
    : activeAbove inputs position = true ↔ inputs[position + 1]? = some true := by
  rw [activeAbove, List.getD_eq_getElem?_getD]
  cases inputs[position + 1]? <;> simp

/-- The number of the first active input from the highest down, or zero if none but the lowest one
can be active.
-/
def highestInput (inputs : List Bool) : Nat :=
  (((List.range (inputs.length - 1)).reverse.find? (activeAbove inputs)).map (· + 1)).getD 0

/-- A search from the top finds the last position that passes; by induction on their count. -/
theorem find?_reverse_range {count position : Nat} {test : Nat → Bool}
    (found : (List.range count).reverse.find? test = some position)
    : ∀ later, position < later → later < count → test later = false := by
  intro later above inside
  induction count with
  | zero => cases inside
  | succ count ih =>
      rw [List.range_succ, List.reverse_append, List.reverse_singleton, List.singleton_append,
        List.find?_cons] at found
      cases passes : test count with
      | true =>
          obtain rfl : count = position := by simpa [passes] using found
          omega
      | false =>
          obtain rfl | below : later = count ∨ later < count := by omega
          · exact passes
          · exact ih (by simpa [passes] using found) below

theorem isHighest_highestInput {inputs : List Bool} (some : true ∈ inputs)
    : IsHighest inputs (highestInput inputs) := by
  unfold highestInput
  cases found : (List.range (inputs.length - 1)).reverse.find? (activeAbove inputs) with
  | some position =>
      refine ⟨activeAbove_iff.mp (List.find?_some found), fun higher beyond active => ?_⟩
      obtain ⟨later, rfl⟩ := Nat.exists_eq_succ_of_ne_zero (Nat.ne_zero_of_lt beyond)
      have inside : later < inputs.length - 1 := by
        have := (List.getElem?_eq_some_iff.mp active).1
        omega
      have passive := find?_reverse_range found later (Nat.lt_of_succ_lt_succ beyond) inside
      rw [activeAbove_iff.mpr active] at passive
      cases passive
  | none =>
      have passive (later : Nat) : inputs[later + 1]? ≠ .some true := by
        intro active
        have inside := (List.getElem?_eq_some_iff.mp active).1
        refine List.find?_eq_none.mp found later ?_ (activeAbove_iff.mpr active)
        exact List.mem_reverse.mpr (List.mem_range.mpr (by omega))
      obtain ⟨active, given⟩ := List.mem_iff_getElem?.mp some
      refine ⟨?_, fun higher beyond => ?_⟩
      · cases active with
        | zero => exact given
        | succ later => exact absurd given (passive later)
      · obtain ⟨later, rfl⟩ := Nat.exists_eq_succ_of_ne_zero (Nat.ne_zero_of_lt beyond)
        exact passive later

-----------------------------------------------------------------------------------------
-- Widths of the names
-----------------------------------------------------------------------------------------

/-- Levels of the names of a priority encoder. -/
def priorityEncoderLevels (attributes : Attributes) (level : BitPlace → Level) : Valuation :=
  (priorityEncoderForm attributes).valuation (priorityEncoderArchitecture attributes) level

/-- Width of a name in the unit of a priority encoder. -/
def encoderWidth (attributes : Attributes) (name : String) : Nat :=
  if name = "input_vector" then count attributes
  else if name = "Address" ∨ name = "s_address" then attributes.selectBits
  else 1

theorem priorityEncoder_ports (attributes : Attributes)
    : (priorityEncoderForm attributes).ports.map (fun port => (port.name, port.width))
      = ["input_vector", "Enable", "Address", "EnableOut", "GroupSelect"].map (fun name =>
          (name, encoderWidth attributes name)) :=
  rfl

theorem priorityEncoder_width (supported : Primitive.priorityEncoder.shapeFault? attributes = none)
    (level : BitPlace → Level) {name : String}
    (declared
      : name ∈ ["input_vector", "Enable", "Address", "EnableOut", "GroupSelect", "s_address",
          "s_any"])
    : (priorityEncoderLevels attributes level).width name = encoderWidth attributes name := by
  have sized : (priorityEncoderForm attributes).Sized := Realization.ofPrimitive_sized supported rfl
  have signals
      : ∀ signal ∈ (priorityEncoderArchitecture attributes).signals,
          signal.width.value? (priorityEncoderForm attributes).parameters
          = some (encoderWidth attributes signal.name) :=
    List.forall_mem_cons.mpr ⟨rfl, List.forall_mem_singleton.mpr rfl⟩
  exact Form.width_valuation sized (priorityEncoder_ports attributes) signals declared

/-- There is an input for each bit of the input vector. -/
theorem length_inputs (supported : Primitive.priorityEncoder.shapeFault? attributes = none)
    {level : BitPlace → Level} {inputs : List Bool}
    (given
      : (priorityEncoderLevels attributes level).levels "input_vector" = inputs.map .ofBool)
    : inputs.length = count attributes := by
  rw [← List.length_map, ← given, Valuation.length_levels]
  exact priorityEncoder_width supported level List.mem_cons_self

-----------------------------------------------------------------------------------------
-- Conditions
-----------------------------------------------------------------------------------------

section

variable {valuation : Valuation} {inputs : List Bool}

/-- The arms for the address choose the number of the highest active input. -/
theorem addressArms_choose (given : valuation.levels "input_vector" = inputs.map .ofBool)
    (length : inputs.length = count attributes)
    : Expr.choose? valuation (.const 0 attributes.selectBits)
        ((List.range (count attributes - 1)).reverse.map (fun i =>
          (.equals (.index "input_vector" (i + 1)) (.bit .one),
            .const (i + 1) attributes.selectBits)))
      = some (.const (highestInput inputs) attributes.selectBits) := by
  have width : valuation.width "input_vector" = inputs.length := by
    rw [← Valuation.length_levels, given, List.length_map]
  have decided
      : ∀ i ∈ (List.range (count attributes - 1)).reverse,
          (Expr.equals (.index "input_vector" (i + 1)) (.bit .one)).holds? valuation
          = some (activeAbove inputs i) := by
    intro i listed
    have inside : i + 1 < inputs.length := by
      have := List.mem_range.mp (List.mem_reverse.mp listed)
      omega
    have read := Valuation.getElem?_levels (width.symm ▸ inside)
    rw [given, List.getElem?_map, List.getElem?_eq_getElem inside, Option.map_some] at read
    have active : activeAbove inputs i = inputs[i + 1] := by
      rw [activeAbove, List.getD_eq_getElem?_getD, List.getElem?_eq_getElem inside]
      rfl
    refine Expr.holds?_equals_one (by simp [Expr.isSized, width, inside]) ?_
    rw [Expr.eval, Expr.places, List.map_singleton, active, Option.some.inj read]
  rw [Expr.choose?_map decided, highestInput, length]
  cases (List.range (count attributes - 1)).reverse.find? (activeAbove inputs) <;> rfl

/-- Comparing all inputs with zeros tells whether none of them is active. -/
theorem holds?_noneActive (given : valuation.levels "input_vector" = inputs.map .ofBool)
    (length : inputs.length = count attributes)
    : (Expr.equals (.ref "input_vector") (.filled .zero (.fixed (count attributes)))).holds?
        valuation
      = some !decide (true ∈ inputs) := by
  have zeros
      : (Expr.filled .zero (.fixed (count attributes))).eval valuation
        = (List.replicate inputs.length false).map .ofBool := by
    rw [Expr.eval, length, List.map_replicate]
    rfl
  have compared : (inputs == List.replicate inputs.length false) = !decide (true ∈ inputs) := by
    rw [Bool.eq_iff_iff, beq_iff_eq, List.eq_replicate_iff]
    simp
  rw [← compared]
  exact
    Expr.holds?_equals rfl rfl ((Valuation.eval_ref _ _).trans given) zeros (by simp)

end

-----------------------------------------------------------------------------------------
-- Statements
-----------------------------------------------------------------------------------------

/-- What the statements for the outputs read. -/
structure Encoded (attributes : Attributes) (enable : Bool) (inputs : List Bool)
    (valuation : Valuation)
    : Prop where
  enabled : valuation.levels "Enable" = [.ofBool enable]
  someActive : valuation.levels "s_any" = [.ofBool (decide (true ∈ inputs))]
  address
    : valuation.levels "s_address" = Level.digits (highestInput inputs) attributes.selectBits

theorem Encoded.put {enable : Bool} {inputs : List Bool} {valuation : Valuation}
    (encoded : Encoded attributes enable inputs valuation) {name : String}
    (output : name ∈ ["Address", "EnableOut", "GroupSelect"]) (levels : List Level)
    : Encoded attributes enable inputs (valuation.put name levels) := by
  have kept {other : String} (read : other ∈ ["Enable", "s_any", "s_address"])
      : (valuation.put name levels).levels other = valuation.levels other := by
    refine Valuation.levels_put_of_ne ?_
    rintro rfl
    revert read
    simp only [List.mem_cons, List.not_mem_nil, or_false] at output
    rcases output with rfl | rfl | rfl <;> decide
  exact
    ⟨(kept (by simp)).trans encoded.enabled, (kept (by simp)).trans encoded.someActive,
      (kept (by simp)).trans encoded.address⟩

/-- What the address output carries. -/
def shownAddress (attributes : Attributes) (enable : Bool) (inputs : List Bool) : List Level :=
  if enable ∧ true ∈ inputs then Level.digits (highestInput inputs) attributes.selectBits
  else List.replicate attributes.selectBits (.ofBit (disabledBit attributes))

@[simp] theorem length_shownAddress (attributes : Attributes) (enable : Bool) (inputs : List Bool)
    : (shownAddress attributes enable inputs).length = attributes.selectBits := by
  unfold shownAddress
  split
  · exact Level.length_digits _ _
  · exact List.length_replicate

/-- The address is shown if the component is switched on and some input is active. -/
theorem Encoded.performs_address {enable : Bool} {inputs : List Bool} {valuation : Valuation}
    (encoded : Encoded attributes enable inputs valuation) (positive : 0 < attributes.selectBits)
    (width : valuation.width "Address" = attributes.selectBits)
    : (Statement.conditional (.ref "Address")
          [(.isLow "Enable", .filled (disabledBit attributes) (.fixed attributes.selectBits)),
            (.isLow "s_any", .filled (disabledBit attributes) (.fixed attributes.selectBits))]
          (.ref "s_address")).perform? valuation
      = some (valuation.put "Address" (shownAddress attributes enable inputs)) := by
  let off : Expr := .filled (disabledBit attributes) (.fixed attributes.selectBits)
  let value : Expr := if enable ∧ true ∈ inputs then .ref "s_address" else off
  have chosen
      : Expr.choose? valuation (.ref "s_address") [(.isLow "Enable", off), (.isLow "s_any", off)]
        = some value := by
    simp only [Expr.choose?, Expr.holds?_isLow encoded.enabled,
      Expr.holds?_isLow encoded.someActive, value]
    by_cases active : true ∈ inputs <;> cases enable <;> simp [active]
  have evaluates : value.eval valuation = shownAddress attributes enable inputs := by
    simp only [value, shownAddress]
    split
    · exact (Valuation.eval_ref _ _).trans encoded.address
    · rw [Expr.eval]
      rfl
  have sized : value.isSized valuation = true := by
    simp only [value]
    split <;> rfl
  exact
    Statement.perform?_conditional chosen sized evaluates (by rw [length_shownAddress, width])
      (by rwa [width])

/-- The outputs show what the statements before them have found. -/
theorem Encoded.performs_outputs {enable : Bool} {inputs : List Bool} {valuation : Valuation}
    (encoded : Encoded attributes enable inputs valuation) (positive : 0 < attributes.selectBits)
    (widths
      : ∀ name ∈ ["Address", "EnableOut", "GroupSelect"],
          valuation.width name = encoderWidth attributes name)
    : ∃ after,
        ((priorityEncoderArchitecture attributes).statements.drop 2).foldlM Statement.perform?
            valuation
          = some after
        ∧ after.levels "Address" = shownAddress attributes enable inputs
        ∧ after.levels "EnableOut" = [.ofBool (enable && !decide (true ∈ inputs))]
        ∧ after.levels "GroupSelect" = [.ofBool (enable && decide (true ∈ inputs))] := by
  have address : valuation.width "Address" = attributes.selectBits := widths _ (by simp)
  have enableOut : valuation.width "EnableOut" = 1 := widths _ (by simp)
  have groupSelect : valuation.width "GroupSelect" = 1 := widths _ (by simp)
  let shown := valuation.put "Address" (shownAddress attributes enable inputs)
  let passed := shown.put "EnableOut" [.ofBool (enable && !decide (true ∈ inputs))]
  have atShown : Encoded attributes enable inputs shown := encoded.put (by simp) _
  have atPassed : Encoded attributes enable inputs passed := atShown.put (by simp) _
  have passes :=
    Statement.perform?_shows
      (Expr.holds?_and (Expr.holds?_isHigh atShown.enabled) (Expr.holds?_isLow atShown.someActive))
      enableOut
  have groups :=
    Statement.perform?_shows
      (Expr.holds?_and (Expr.holds?_isHigh atPassed.enabled)
        (Expr.holds?_isHigh atPassed.someActive))
      groupSelect
  refine ⟨passed.put "GroupSelect" [.ofBool (enable && decide (true ∈ inputs))], ?_, ?_, ?_, ?_⟩
  · simp only [priorityEncoderArchitecture, List.drop_succ_cons, List.drop_zero, List.foldlM_cons,
      encoded.performs_address positive address, Option.bind_eq_bind, Option.bind_some]
    rw [passes, Option.bind_some, groups]
    rfl
  · rw [Valuation.levels_put_of_ne (by decide), Valuation.levels_put_of_ne (by decide),
      Valuation.levels_put (by rw [length_shownAddress, address])]
  · exact (Valuation.levels_put_of_ne (by decide)).trans (Valuation.levels_put enableOut.symm)
  · exact Valuation.levels_put groupSelect.symm

/-- The statements before the outputs find out which input is the highest active one. -/
theorem priorityEncoder_reads (supported : Primitive.priorityEncoder.shapeFault? attributes = none)
    {level : BitPlace → Level} {enable : Bool} {inputs : List Bool}
    (enabled : (priorityEncoderLevels attributes level).levels "Enable" = [.ofBool enable])
    (given
      : (priorityEncoderLevels attributes level).levels "input_vector" = inputs.map .ofBool)
    : ∃ after,
        ((priorityEncoderArchitecture attributes).statements.take 2).foldlM Statement.perform?
            (priorityEncoderLevels attributes level)
          = some after
        ∧ Encoded attributes enable inputs after
        ∧ after.width = (priorityEncoderLevels attributes level).width := by
  have wide := @priorityEncoder_width attributes supported level
  have positive := Primitive.selectBits_pos supported rfl
  have length := length_inputs supported given
  set before := priorityEncoderLevels attributes level
  have address : before.width "s_address" = attributes.selectBits := wide (by simp)
  have someActive : before.width "s_any" = 1 := wide (by simp)
  have sizes
      : (Level.digits (highestInput inputs) attributes.selectBits).length
        = before.width "s_address" := by
    rw [Level.length_digits, address]
  let addressed :=
    before.put "s_address" (Level.digits (highestInput inputs) attributes.selectBits)
  have found
      : (Statement.conditional (.ref "s_address")
            ((List.range (count attributes - 1)).reverse.map (fun i =>
              (.equals (.index "input_vector" (i + 1)) (.bit .one),
                .const (i + 1) attributes.selectBits)))
            (.const 0 attributes.selectBits)).perform? before
        = some addressed :=
    Statement.perform?_conditional (addressArms_choose given length) rfl
      (Expr.eval_const _ _ _) sizes (by rwa [address])
  have noneActive
      : (Statement.conditional (.ref "s_any")
            [(.equals (.ref "input_vector") (.filled .zero (.fixed (count attributes))),
              .bit .zero)]
            (.bit .one)).perform? addressed
        = some (addressed.put "s_any" [.ofBool (decide (true ∈ inputs))]) := by
    have unchanged : addressed.levels "input_vector" = inputs.map .ofBool :=
      (Valuation.levels_put_of_ne (by decide)).trans given
    have single : addressed.width "s_any" = 1 := someActive
    rw [Statement.perform?_bits (holds?_noneActive unchanged length) single]
    cases decide (true ∈ inputs) <;> rfl
  refine ⟨addressed.put "s_any" [.ofBool (decide (true ∈ inputs))], ?_, ⟨?_, ?_, ?_⟩, rfl⟩
  · simp only [priorityEncoderArchitecture, List.take_succ_cons, List.take_zero, List.foldlM_cons,
      found, Option.bind_eq_bind, Option.bind_some]
    rw [noneActive]
    rfl
  · rw [Valuation.levels_put_of_ne (by decide), Valuation.levels_put_of_ne (by decide), enabled]
  · exact Valuation.levels_put someActive.symm
  · rw [Valuation.levels_put_of_ne (by decide), Valuation.levels_put sizes]

-----------------------------------------------------------------------------------------
-- Encoding
-----------------------------------------------------------------------------------------

/-- What the outputs of a priority encoder carry after its statements, by its inputs. -/
inductive Encodes (attributes : Attributes) (enable : Bool) (inputs : List Bool) (after : Valuation)
    : Prop
  | active {highest : Nat} (enabled : enable = true) (isHighest : IsHighest inputs highest)
    (address : Level.unsigned? (after.levels "Address") = some highest)
    (width : (after.levels "Address").length = attributes.selectBits)
    (groupSelect : after.levels "GroupSelect" = [.high])
    (enableOut : after.levels "EnableOut" = [.low])
  | passive (enabled : enable = true) (noneActive : true ∉ inputs)
    (address
      : after.levels "Address"
        = List.replicate attributes.selectBits (.ofBit (disabledBit attributes)))
    (groupSelect : after.levels "GroupSelect" = [.low])
    (enableOut : after.levels "EnableOut" = [.high])
  | off (disabled : enable = false)
    (address
      : after.levels "Address"
        = List.replicate attributes.selectBits (.ofBit (disabledBit attributes)))
    (groupSelect : after.levels "GroupSelect" = [.low])
    (enableOut : after.levels "EnableOut" = [.low])

/-- The outputs report what they show, by cases on the enable input and on the active inputs. -/
theorem encodes_of_outputs {enable : Bool} {inputs : List Bool} {after : Valuation}
    (length : inputs.length = 2 ^ attributes.selectBits)
    (address : after.levels "Address" = shownAddress attributes enable inputs)
    (enableOut : after.levels "EnableOut" = [.ofBool (enable && !decide (true ∈ inputs))])
    (groupSelect : after.levels "GroupSelect" = [.ofBool (enable && decide (true ∈ inputs))])
    : Encodes attributes enable inputs after := by
  cases enable with
  | false => exact .off rfl address groupSelect enableOut
  | true =>
      by_cases active : true ∈ inputs
      · have isHighest := isHighest_highestInput active
        have fits : highestInput inputs < 2 ^ attributes.selectBits :=
          Nat.lt_of_lt_of_eq (List.getElem?_eq_some_iff.mp isHighest.active).1 length
        rw [shownAddress, if_pos ⟨rfl, active⟩] at address
        rw [decide_eq_true active] at enableOut groupSelect
        refine .active rfl isHighest ?_ ?_ groupSelect enableOut
        · rw [address, Level.unsigned?_digits fits]
        · rw [address, Level.length_digits]
      · rw [shownAddress, if_neg (fun shown => active shown.2)] at address
        rw [decide_eq_false active] at enableOut groupSelect
        exact .passive rfl active address groupSelect enableOut

/-- The statements of a priority encoder with a supported configuration report the highest active
input. From any levels with low or high inputs they can be carried out to their end. While the
component is switched on, the address is the number of the highest active input, and the status
outputs tell whether there is one.
-/
theorem priorityEncoder_reports {attributes : Attributes}
    (supported : Primitive.priorityEncoder.shapeFault? attributes = none)
    : ∃ form architecture,
        Realization.ofPrimitive .priorityEncoder attributes = ⟨form, .builtIn architecture⟩
        ∧ ∀ level before enable inputs,
          form.valuation architecture level = before
          → before.levels "Enable" = [.ofBool enable]
          → before.levels "input_vector" = inputs.map .ofBool
          → inputs.length = 2 ^ attributes.selectBits
            ∧ ∃ after,
              architecture.perform? before = some after
              ∧ Encodes attributes enable inputs after := by
  refine ⟨_, _, rfl, ?_⟩
  rintro level _ enable inputs rfl enabled given
  have length := length_inputs supported given
  obtain ⟨middle, reads, encoded, width⟩ := priorityEncoder_reads supported enabled given
  have widths
      : ∀ name ∈ ["Address", "EnableOut", "GroupSelect"],
          middle.width name = encoderWidth attributes name := by
    have declared
        : ["Address", "EnableOut", "GroupSelect"]
          ⊆ ["input_vector", "Enable", "Address", "EnableOut", "GroupSelect", "s_address",
              "s_any"] := by
      simp
    intro name listed
    rw [width]
    exact priorityEncoder_width supported level (declared listed)
  obtain ⟨after, shows, address, enableOut, groupSelect⟩ :=
    encoded.performs_outputs (Primitive.selectBits_pos supported rfl) widths
  refine ⟨length, after, ?_, encodes_of_outputs length address enableOut groupSelect⟩
  rw [Architecture.perform?, ← List.take_append_drop 2 (priorityEncoderArchitecture _).statements,
    List.foldlM_append]
  exact Option.bind_eq_some_iff.mpr ⟨middle, reads, shows⟩

/-- A priority encoder with four inputs. -/
def fourInputs : Attributes := .ofList [("select", .number 2)]

/-- The component is switched on, and the two inputs in the middle are active. -/
def middleLevel (place : BitPlace) : Level :=
  .ofBool (place.name = "Enable" || place.bit = 1 || place.bit = 2)

/-- The higher one of two active inputs is reported. -/
theorem higherInput_reports
    : ∃ after,
        (priorityEncoderArchitecture fourInputs).perform?
            ((priorityEncoderForm fourInputs).valuation (priorityEncoderArchitecture fourInputs)
              middleLevel)
          = some after
        ∧ Level.unsigned? (after.levels "Address") = some 2
        ∧ after.levels "GroupSelect" = [.high] := by
  obtain ⟨form, architecture, realized, reports⟩ :=
    @priorityEncoder_reports fourInputs (by decide +kernel)
  obtain ⟨rfl, same⟩ := Realization.mk.inj realized
  obtain rfl := Definition.builtIn.inj same
  obtain ⟨-, after, performed, encodes⟩ :=
    reports middleLevel _ true [false, true, true, false] rfl (by decide +kernel)
      (by decide +kernel)
  refine ⟨after, performed, ?_⟩
  cases encodes with
  | active enabled isHighest address width groupSelect enableOut =>
      have highest (number : Nat) (isHighest : IsHighest [false, true, true, false] number)
          : number = 2 := by
        match number, isHighest.active with
        | 1, _ => exact absurd rfl (isHighest.maximal 2 (by decide))
        | 2, _ => rfl
        | later + 3, active => cases later <;> cases active
      rw [highest _ isHighest] at address
      exact ⟨address, groupSelect⟩
  | passive enabled noneActive => exact absurd (by decide) noneActive
  | off disabled => cases disabled

end SchematicHdl.Selector
