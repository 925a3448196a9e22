import SchematicHdl.Proofs.Realization.Coverage

/-! Bits of inlined components. A constant drives every connected bit of its output, and a gate
drives every one at which an input is connected. A gate without any connected input drives nothing,
and a warning tells of it.
-/

namespace SchematicHdl

open Hdl (Expr Statement)
open Net (Point)
open Outcome

/-- The warning about a gate without connected inputs. -/
def Component.undrivenWarning (component : Component) : String :=
  s!"{component.describe} has no connected inputs, its output is left undriven."

/-- No input of a gate is connected at the bit, though one of them is at another bit. -/
structure Part.LacksOperand (part : Part) (bit : Nat) : Prop where
  inlined : part.component.isInlined = true
  connected : ∃ input ∈ part.ends, input.direction = .input ∧ input.isUnconnected = false
  missing : ∀ input ∈ part.ends, input.direction = .input → input.points[bit]?.join = none

/-- An end of an inlined component is its output or one of its inputs. -/
theorem Gate.output_or_input {type : Primitive} {attributes : Attributes}
    (inlined : (Realization.ofPrimitive type attributes).isInlined = true) {endIndex : Nat}
    {shape : EndShape} (found : (type.ends attributes)[endIndex]? = some shape)
    : (endIndex = outputEnd ∧ shape = .output attributes.width)
      ∨ (endIndex ∈ inputEnds type attributes ∧ shape = .input attributes.width) := by
  cases endIndex with
  | zero => exact .inl ⟨rfl, Option.some.inj (found.symm.trans (ends_eq inlined).1)⟩
  | succ i =>
      have member : i + 1 ∈ inputEnds type attributes := by
        refine List.mem_map.mpr ⟨i, List.mem_range.mpr ?_, rfl⟩
        have inside := (List.getElem?_eq_some_iff.mp found).1
        cases type with
        | and | or | xor | nand | nor | xnor =>
            simpa [Primitive.ends, Primitive.endsFor] using inside
        | constant => simp [Primitive.ends, Primitive.endsFor] at inside
        | not => exact Nat.lt_of_succ_lt_succ inside
        | multiplexer | demultiplexer | decoder | priorityEncoder | register => cases inlined
      exact .inr ⟨member, Option.some.inj (found.symm.trans ((ends_eq inlined).2 _ member))⟩

theorem ResolvedEnd.join_eq_none {resolved : ResolvedEnd}
    (unconnected : resolved.isUnconnected = true) (bit : Nat)
    : resolved.points[bit]?.join = none := by
  rw [Option.join_eq_none_iff]
  cases found : resolved.points[bit]? with
  | none => exact .inl rfl
  | some point =>
      have none := List.all_eq_true.mp unconnected point (List.mem_of_getElem? found)
      exact .inr (congrArg some (Option.isNone_iff_eq_none.mp none))

namespace Placement

variable {placement : Placement} {notes notes' : Notes} {endIndex : Nat} {resolved : ResolvedEnd}

section Found

variable (found : placement.part.end? endIndex = some resolved)
include found

theorem whole?_eq : placement.whole? endIndex = .ok (placement.netlist.endExpr? resolved) := by
  rw [whole?, endAt_eq_ok.2 found]
  rfl

theorem bit?_eq (bit : Nat)
    : placement.bit? endIndex bit
      = .ok ((resolved.points[bit]?.join).map placement.netlist.pointExpr) := by
  rw [bit?, endAt_eq_ok.2 found]
  rfl

theorem isUnconnected_eq : placement.isUnconnected endIndex = .ok resolved.isUnconnected := by
  rw [isUnconnected, endAt_eq_ok.2 found]
  rfl

end Found

/-- Where each bit up to the width of an end is gone through, a connected bit of the end is. -/
theorem mem_range_of_connected {width bit : Nat} {point : Point} (same : resolved.width = width)
    (connected : resolved.points[bit]? = some (some point))
    : bit ∈ List.range width := by
  rw [List.mem_range, ← same]
  exact (List.getElem?_eq_some_iff.mp connected).1

theorem constantStatements_drivesEnd (found : placement.part.end? Gate.outputEnd = some resolved)
    (width : resolved.width = placement.part.component.attributes.width)
    {statements : List Statement} (made : placement.constantStatements = .ok statements)
    : placement.netlist.DrivesEnd (statements.flatMap Statement.targets) resolved := by
  simp only [constantStatements, whole?_eq found, bind_eq_ok] at made
  obtain ⟨whole, same, made⟩ := made
  obtain rfl := Except.ok.inj same
  split at made
  · next target slice =>
      obtain rfl := pure_eq_ok.1 made
      exact Netlist.drivesEnd_of_endExpr? slice List.mem_cons_self
  · simp only [bind_eq_ok, pure_eq_ok] at made
    obtain ⟨targets, each, rfl⟩ := made
    refine Netlist.drivesEnd_of_points fun point connected => ?_
    obtain ⟨bit, atBit⟩ := List.getElem?_of_mem connected
    have listed := mem_range_of_connected width atBit
    have atPlace : (List.range placement.part.component.attributes.width)[bit]? = some bit := by
      rw [List.getElem?_range (List.mem_range.mp listed)]
    obtain ⟨target, there, taken⟩ := forall₂_getElem? (mapM_eq_ok.1 each) atPlace
    rw [bit?_eq found, atBit] at taken
    obtain rfl := Except.ok.inj taken
    have numbered
        : (some (placement.netlist.pointExpr point), bit) ∈ targets.zipIdx :=
      List.mem_zipIdx_iff_getElem?.mpr there
    exact List.mem_flatMap.mpr ⟨_, List.mem_filterMap.mpr ⟨_, numbered, rfl⟩, List.mem_cons_self⟩

/-- A gate drives a connected bit of its output unless none of the inputs has the bit. -/
theorem gateStatements_drives {type : Primitive} {inputs : List Nat}
    (found : placement.part.end? Gate.outputEnd = some resolved)
    (width : resolved.width = placement.part.component.attributes.width)
    {statements : List Statement} (made : placement.gateStatements type inputs = .ok statements)
    {bit : Nat} {point : Point} (connected : resolved.points[bit]? = some (some point))
    : placement.netlist.DrivesPoint (statements.flatMap Statement.targets) point
      ∨ ∀ endIndex ∈ inputs, placement.bit? endIndex bit = .ok none := by
  simp only [gateStatements, whole?_eq found, bind_eq_ok] at made
  obtain ⟨whole, same, operands, -, made⟩ := made
  obtain rfl := Except.ok.inj same
  split at made
  · next slice =>
      obtain rfl := pure_eq_ok.1 made
      refine .inl (Netlist.drivesEnd_of_endExpr? slice ?_ point (List.mem_of_getElem? connected))
      exact List.mem_cons_self
  · simp only [bind_eq_ok, pure_eq_ok] at made
    obtain ⟨bits, each, rfl⟩ := made
    obtain ⟨statement?, listed, taken⟩ :=
      forall₂_mem_right (mapM_eq_ok.1 each).flip (mem_range_of_connected width connected)
    simp only [gateBit?, bit?_eq found, connected, bind_eq_ok] at taken
    obtain ⟨target, same, taken⟩ := taken
    obtain rfl := Except.ok.inj same
    simp only [Option.join_some, Option.map_some, bind_eq_ok] at taken
    obtain ⟨operands, read, taken⟩ := taken
    split at taken
    · next empty =>
        refine .inr fun endIndex member => ?_
        obtain ⟨operand, among, here⟩ := forall₂_mem_right (mapM_eq_ok.1 read).flip member
        cases operand with
        | none => exact here
        | some operand =>
            have kept : operand ∈ operands.filterMap id :=
              List.mem_filterMap.mpr ⟨some operand, among, rfl⟩
            rw [List.isEmpty_iff.mp empty] at kept
            cases kept
    · obtain rfl := pure_eq_ok.1 taken
      refine .inl ⟨placement.netlist.pointExpr point, ?_, placement.netlist.pointExpr_drives point⟩
      exact
        List.mem_flatMap.mpr
          ⟨_, List.mem_filterMap.mpr ⟨_, listed, rfl⟩, List.mem_cons_self⟩

/-- A gate with a connected input lacks an operand where none of its connected inputs has the bit.
-/
theorem lacksOperand_of_missing {type : Primitive}
    (inlined : (Realization.ofPrimitive type placement.part.component.attributes).isInlined = true)
    (kind : placement.part.component.kind = .primitive type)
    (ends
      : List.Forall₂ (Netlist.Attached placement.netlist.nets)
          (type.ends placement.part.component.attributes) placement.part.ends)
    {used : List Nat}
    (filtered
      : (Gate.inputEnds type placement.part.component.attributes).filterM (fun endIndex => do
            return !(← placement.isUnconnected endIndex))
        = .ok used)
    (some : used.isEmpty = false) {bit : Nat}
    (missing : ∀ endIndex ∈ used, placement.bit? endIndex bit = .ok none)
    : placement.part.LacksOperand bit := by
  have kept := (mem_filterM filtered).2
  refine ⟨by rwa [Component.isInlined, kind], ?_, fun input member isInput => ?_⟩
  · obtain ⟨endIndex, listed⟩ := List.exists_mem_of_ne_nil used (List.isEmpty_eq_false_iff.mp some)
    obtain ⟨member, connected⟩ := (kept endIndex).1 listed
    obtain ⟨input, found, attached⟩ :=
      forall₂_getElem? ends ((Gate.ends_eq inlined).2 endIndex member)
    rw [isUnconnected_eq found] at connected
    refine ⟨input, List.mem_of_getElem? found, attached.direction_eq, ?_⟩
    simpa using pure_eq_ok.1 connected
  · obtain ⟨endIndex, found⟩ := List.getElem?_of_mem member
    obtain ⟨shape, shaped, attached⟩ := forall₂_getElem? ends.flip found
    have listed : endIndex ∈ Gate.inputEnds type placement.part.component.attributes := by
      refine ((Gate.output_or_input inlined shaped).resolve_left fun output => ?_).1
      rw [attached.direction_eq, output.2] at isInput
      cases isInput
    cases unconnected : input.isUnconnected with
    | true => exact ResolvedEnd.join_eq_none unconnected bit
    | false =>
        have here := missing endIndex ((kept endIndex).2 ⟨listed, ?_⟩)
        · rw [bit?_eq found] at here
          exact Option.map_eq_none_iff.mp (Except.ok.inj here)
        · rw [isUnconnected_eq found, unconnected]
          rfl

/-- What becomes of a connected bit of the output of a gate. -/
theorem gateBody_drives {type : Primitive}
    (inlined : (Realization.ofPrimitive type placement.part.component.attributes).isInlined = true)
    (kind : placement.part.component.kind = .primitive type)
    (ends
      : List.Forall₂ (Netlist.Attached placement.netlist.nets)
          (type.ends placement.part.component.attributes) placement.part.ends)
    {statements : List Statement}
    (made : Succeeds (placement.gateBody type) notes statements notes')
    (found : placement.part.end? Gate.outputEnd = some resolved)
    (width : resolved.width = placement.part.component.attributes.width) {bit : Nat} {point : Point}
    (connected : resolved.points[bit]? = some (some point))
    : placement.netlist.DrivesPoint (statements.flatMap Statement.targets) point
      ∨ placement.part.component.undrivenWarning ∈ notes'.warnings
      ∨ placement.part.LacksOperand bit := by
  simp only [gateBody, succeeds_bind, succeeds_ofExcept] at made
  obtain ⟨used, _, ⟨filtered, rfl⟩, made⟩ := made
  split at made
  · simp only [succeeds_bind] at made
    obtain ⟨_, _, warned, made⟩ := made
    obtain ⟨rfl, rfl⟩ := succeeds_pure.1 made
    rw [← succeeds_modify.1 warned]
    exact .inr (.inl (List.mem_append_right _ List.mem_cons_self))
  · next some =>
      obtain ⟨gate, rfl⟩ := succeeds_ofExcept.1 made
      have used := Bool.eq_false_iff.mpr some
      rcases gateStatements_drives found width gate connected with driven | missing
      · exact .inl driven
      · exact .inr (.inr (lacksOperand_of_missing inlined kind ends filtered used missing))

end Placement

/-- What becomes of a connected bit of the output of an inlined component. -/
theorem Realization.Resolves.inlineStatements_drives {hierarchy : Hierarchy} {library : Library}
    {placement : Placement} {dialect : Dialect} {realization : Realization}
    (resolves
      : Resolves hierarchy placement.mode dialect placement.part.component realization)
    (holds
      : Netlist.Holds library hierarchy.netlists placement.netlist placement.part.component
          placement.part)
    (inlined : realization.isInlined = true) {notes notes' : Notes} {statements : List Statement}
    (made : Succeeds (placement.inlineStatements realization) notes statements notes')
    {endIndex bit : Nat} {resolved : ResolvedEnd} {point : Point}
    (found : placement.part.end? endIndex = some resolved)
    (drives : resolved.direction.drives = true)
    (connected : resolved.points[bit]? = some (some point))
    : placement.netlist.DrivesPoint (statements.flatMap Statement.targets) point
      ∨ placement.part.component.undrivenWarning ∈ notes'.warnings
      ∨ placement.part.LacksOperand bit := by
  cases resolves with
  | subcircuit | external => cases inlined
  | @primitive type kind =>
      have ends := holds.ends
      simp only [Library.ends, kind] at ends
      obtain ⟨shape, shaped, attached⟩ := forall₂_getElem? ends.flip found
      have output
          : endIndex = Gate.outputEnd
            ∧ shape = .output placement.part.component.attributes.width := by
        refine (Gate.output_or_input inlined shaped).resolve_right fun input => ?_
        rw [attached.direction_eq, input.2] at drives
        cases drives
      obtain ⟨rfl, rfl⟩ := output
      have definition
          : (ofPrimitive type placement.part.component.attributes).definition = .inlined type := by
        cases type <;> first | rfl | cases inlined
      simp only [Placement.inlineStatements, definition, succeeds_bind, succeeds_ofExcept,
        Placement.isUnconnected_eq found] at made
      obtain ⟨unconnected, _, ⟨same, rfl⟩, made⟩ := made
      obtain rfl := Except.ok.inj same
      split at made
      · next unconnected =>
          have none := ResolvedEnd.join_eq_none unconnected bit
          rw [connected] at none
          cases none
      split at made
      · obtain ⟨constant, rfl⟩ := succeeds_ofExcept.1 made
        have driven := Placement.constantStatements_drivesEnd found attached.width_eq constant
        exact .inl (driven point (List.mem_of_getElem? connected))
      exact Placement.gateBody_drives inlined kind ends made found attached.width_eq connected

end SchematicHdl
