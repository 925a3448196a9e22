import SchematicHdl.Realization.Form
import SchematicHdl.Schematic.Primitive

/-! Multiplexers, demultiplexers, decoders and priority encoders: components that route between
several ends by a select input and can be switched off by an enable input.
-/

namespace SchematicHdl.Selector

open Hdl (Architecture Bit Expr SignalDecl Statement Width)

/-- What the outputs carry while the component is switched off. -/
def disabledBit (attributes : Attributes) : Bit :=
  match attributes.disabledPolicy with
  | .zero => .zero
  | .floating => .highZ

/-- What unselected outputs carry. -/
def unselectedBit (attributes : Attributes) : Bit :=
  if attributes.isTristate then .highZ else .zero

/-- Number of selectable ends. -/
def count (attributes : Attributes) : Nat := Nat.pow 2 attributes.selectBits

/-- Number of ends that the enable input takes up. -/
def enableCount (attributes : Attributes) : Nat := attributes.hasEnable.toNat

def busSuffix (attributes : Attributes) : String := if attributes.width > 1 then "_bus" else ""

def tristateSuffix (attributes : Attributes) : String :=
  if attributes.isTristate then "_tristate" else ""

def floatingSuffix (attributes : Attributes) : String :=
  match attributes.disabledPolicy with
  | .zero => ""
  | .floating => "_floating"

/-- The enable input; without an enable end it is always high. -/
def enablePort (attributes : Attributes) (enableEnd : Nat) : Port :=
  let source : PortSource :=
    if attributes.hasEnable then .whole enableEnd else .fixed (.bit .one)
  (Port.plain "Enable" 1 source).tiedTo .one

/-- The select input has a certain value. -/
def selects (attributes : Attributes) (value : Nat) : Expr :=
  .equals (.ref "Sel") (.const value attributes.selectBits)

/-- A data signal filled with one bit. -/
def filledData (attributes : Attributes) (bit : Bit) : Expr :=
  .filled bit (dataWidth attributes.width)

/-- A numbered data port. -/
def dataPort (stem : String) (attributes : Attributes) (i : Nat) : Port :=
  (Port.plain s!"{stem}_{i}" attributes.width (.whole i)).sizedBy dataWidthGeneric

def form (name origin : String) (inputs outputs : List Port) (parameters : List (String × Nat))
    : Form :=
  {
    name,
    origin,
    labelStem := "PLEXERS",
    directory := "plexers",
    inputs,
    outputs,
    inouts := [],
    parameters
  }

def multiplexerForm (attributes : Attributes) : Form :=
  let n := count attributes
  form s!"Multiplexer{busSuffix attributes}_{n}{floatingSuffix attributes}" "Multiplexer"
    ((List.range n).map (dataPort "MuxIn" attributes)
      ++ [.plain "Sel" attributes.selectBits (.whole n), enablePort attributes (n + 1)])
    [(Port.plain "MuxOut" attributes.width (.whole (n + 1 + enableCount attributes))).sizedBy
      dataWidthGeneric]
    (dataWidthParameters attributes.width)

/-- One data input is selected; the last one covers the remaining values of the select input. -/
def multiplexerArchitecture (attributes : Attributes) : Architecture :=
  let last := count attributes - 1
  {
    signals := [⟨"s_selected_vector", dataWidth attributes.width, .reg⟩],
    statements := [
      .select {
        target := "s_selected_vector",
        selector := "Sel",
        selectorWidth := attributes.selectBits,
        arms := (List.range last).map (fun i => (i, .ref s!"MuxIn_{i}")),
        otherwise := .ref s!"MuxIn_{last}"
      },
      .conditional (.ref "MuxOut")
        [(.isLow "Enable", filledData attributes (disabledBit attributes))]
        (.ref "s_selected_vector")
    ]
  }

def demultiplexerForm (attributes : Attributes) : Form :=
  let n := count attributes
  let suffix := tristateSuffix attributes ++ floatingSuffix attributes
  form s!"Demultiplexer{busSuffix attributes}_{n}{suffix}" "Demultiplexer"
    [(Port.plain "DemuxIn" attributes.width (.whole (n + 1 + enableCount attributes))).sizedBy
        dataWidthGeneric,
      .plain "Sel" attributes.selectBits (.whole n), enablePort attributes (n + 1)]
    ((List.range n).map (dataPort "DemuxOut" attributes))
    (dataWidthParameters attributes.width)

def demultiplexerArchitecture (attributes : Attributes) : Architecture :=
  {
    signals := [],
    statements :=
      (List.range (count attributes)).map (fun i =>
        .conditional (.ref s!"DemuxOut_{i}")
          [(.isLow "Enable", filledData attributes (disabledBit attributes)),
            (selects attributes i, .ref "DemuxIn")]
          (filledData attributes (unselectedBit attributes)))
  }

def decoderForm (attributes : Attributes) : Form :=
  let n := count attributes
  form s!"Decoder_{n}{tristateSuffix attributes}{floatingSuffix attributes}" "Decoder"
    [.plain "Sel" attributes.selectBits (.whole n), enablePort attributes (n + 1)]
    ((List.range n).map (fun i => .plain s!"DecoderOut_{i}" 1 (.whole i)))
    []

def decoderArchitecture (attributes : Attributes) : Architecture :=
  {
    signals := [],
    statements :=
      (List.range (count attributes)).map (fun i =>
        .conditional (.ref s!"DecoderOut_{i}")
          [(.isLow "Enable", .bit (disabledBit attributes)),
            (selects attributes i, .bit .one)]
          (.bit (unselectedBit attributes)))
  }

/-- The enable input is always an end of its own; two status outputs follow it. -/
def priorityEncoderForm (attributes : Attributes) : Form :=
  let n := count attributes
  form s!"Priority_Encoder_{n}{floatingSuffix attributes}" "Priority Encoder"
    [.plain "input_vector" n (.bitwise (List.range n)),
      (Port.plain "Enable" 1 (.whole (n + 1))).tiedTo .one]
    [.plain "Address" attributes.selectBits (.whole n),
      .plain "EnableOut" 1 (.whole (n + 2)),
      .plain "GroupSelect" 1 (.whole (n + 3))]
    []

/-- The arms ask for the inputs from the highest down, so the highest active input wins. -/
def priorityEncoderArchitecture (attributes : Attributes) : Architecture :=
  let n := count attributes
  let select := attributes.selectBits
  let address := fun value => Expr.const value select
  let disabled := Expr.filled (disabledBit attributes) (.fixed select)
  let noneActive := Expr.isLow "s_any"
  {
    signals := [⟨"s_address", .fixed select, .wire⟩, ⟨"s_any", .fixed 1, .wire⟩],
    statements := [
      .conditional (.ref "s_address")
        ((List.range (n - 1)).reverse.map (fun i =>
          (.equals (.index "input_vector" (i + 1)) (.bit .one), address (i + 1))))
        (address 0),
      .conditional (.ref "s_any")
        [(.equals (.ref "input_vector") (.filled .zero (.fixed n)), .bit .zero)]
        (.bit .one),
      .conditional (.ref "Address")
        [(.isLow "Enable", disabled), (noneActive, disabled)]
        (.ref "s_address"),
      .conditional (.ref "EnableOut")
        [(.binary .and [.isHigh "Enable", noneActive], .bit .one)]
        (.bit .zero),
      .conditional (.ref "GroupSelect")
        [(.binary .and [.isHigh "Enable", .isHigh "s_any"], .bit .one)]
        (.bit .zero)
    ]
  }

end SchematicHdl.Selector
