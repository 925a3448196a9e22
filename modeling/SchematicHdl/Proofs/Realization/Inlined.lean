import SchematicHdl.Proofs.Realization.Placement

/-! Inlined components. The assignments of a gate or a constant use the ends of the part only, with
equal widths on both sides.
-/

namespace SchematicHdl

open Hdl (Bit Expr Scope Statement)
open Outcome

namespace Gate

/-- The result of a gate is as wide as its operands. -/
theorem combine_hasWidth {scope : Scope} {type : Primitive} {operands : List Expr} {width : Nat}
    (typed : ∀ operand ∈ operands, operand.HasWidth scope width)
    : (combine type operands).HasWidth scope width := by
  simp only [combine]
  split
  · refine .not ?_
    split
    · exact typed _ List.mem_cons_self
    · exact .binary typed
  · split
    · exact typed _ List.mem_cons_self
    · exact .binary typed

/-- An inlined component has an output and as many inputs as it reads, all of the same width. -/
theorem ends_eq {type : Primitive} {attributes : Attributes}
    (inlined : (Realization.ofPrimitive type attributes).isInlined = true)
    : (type.ends attributes)[outputEnd]? = some (.output attributes.width)
      ∧ ∀ endIndex ∈ inputEnds type attributes,
          (type.ends attributes)[endIndex]? = some (.input attributes.width) := by
  refine ⟨?_, fun endIndex member => ?_⟩
  · cases type <;> first | rfl | cases inlined
  · simp only [inputEnds, List.mem_map, List.mem_range] at member
    obtain ⟨i, inside, rfl⟩ := member
    cases type with
    | and | or | xor | nand | nor | xnor =>
        simp_all [Primitive.ends, Primitive.endsFor]
    | not =>
        obtain rfl : i = 0 := by simpa using inside
        rfl
    | constant => simp at inside
    | multiplexer | demultiplexer | decoder | priorityEncoder | register => cases inlined

end Gate

namespace Placement

variable {placement : Placement} {notes notes' : Notes}

theorem constantStatements_assign
    (output
      : placement.part.HasEnd placement.netlist Gate.outputEnd
          placement.part.component.attributes.width)
    {statements : List Statement} (made : placement.constantStatements = .ok statements)
    : ∀ statement ∈ statements, statement.Assigns (placement.scope notes) := by
  simp only [constantStatements, bind_eq_ok] at made
  obtain ⟨whole, found, made⟩ := made
  split at made
  · next target =>
      obtain rfl := pure_eq_ok.1 made
      simpa using ⟨_, _, _, rfl, whole?_hasWidth output found, .const⟩
  · simp only [bind_eq_ok, pure_eq_ok] at made
    obtain ⟨targets, each, rfl⟩ := made
    intro statement member
    obtain ⟨⟨target, bit⟩, numbered, made⟩ := List.mem_filterMap.mp member
    obtain ⟨expr, rfl, rfl⟩ := Option.map_eq_some_iff.mp made
    have listed := List.mem_of_getElem? (List.mem_zipIdx_iff_getElem?.1 numbered)
    obtain ⟨place, -, found⟩ := forall₂_mem_right (mapM_eq_ok.1 each) listed
    exact ⟨_, _, _, rfl, bit?_hasWidth output found, bit_hasWidth⟩

/-- Whole operands are found for all inputs or not at all. -/
theorem wholeOperands?_hasWidth {inputs : List Nat} {width : Nat}
    (has : ∀ endIndex ∈ inputs, placement.part.HasEnd placement.netlist endIndex width)
    {operands : List Expr} (found : placement.wholeOperands? inputs = .ok (some operands))
    : ∀ operand ∈ operands, operand.HasWidth (placement.scope notes) width := by
  simp only [wholeOperands?, bind_eq_ok, pure_eq_ok] at found
  obtain ⟨wholes, each, all⟩ := found
  intro operand member
  have listed : some operand ∈ wholes := eq_of_mapM_id all ▸ List.mem_map_of_mem member
  obtain ⟨endIndex, inside, there⟩ := forall₂_mem_right (mapM_eq_ok.1 each) listed
  exact whole?_hasWidth (has endIndex inside) there

theorem gateBit?_assign {type : Primitive} {inputs : List Nat} {width bit : Nat}
    (output : placement.part.HasEnd placement.netlist Gate.outputEnd width)
    (has : ∀ endIndex ∈ inputs, placement.part.HasEnd placement.netlist endIndex width)
    {statement : Statement} (made : placement.gateBit? type inputs bit = .ok (some statement))
    : statement.Assigns (placement.scope notes) := by
  simp only [gateBit?, bind_eq_ok] at made
  obtain ⟨target, found, made⟩ := made
  split at made
  · cases made
  · next target =>
      simp only [bind_eq_ok] at made
      obtain ⟨bits, each, made⟩ := made
      split at made
      · cases made
      · obtain rfl := Option.some.inj (pure_eq_ok.1 made)
        refine ⟨_, _, _, rfl, bit?_hasWidth output found, Gate.combine_hasWidth ?_⟩
        intro operand member
        obtain ⟨bit, listed, some⟩ := List.mem_filterMap.mp member
        obtain rfl : bit = _ := some
        obtain ⟨endIndex, inside, there⟩ := forall₂_mem_right (mapM_eq_ok.1 each) listed
        exact bit?_hasWidth (has endIndex inside) there

theorem gateStatements_assign {type : Primitive} {inputs : List Nat} {width : Nat}
    (output : placement.part.HasEnd placement.netlist Gate.outputEnd width)
    (has : ∀ endIndex ∈ inputs, placement.part.HasEnd placement.netlist endIndex width)
    {statements : List Statement} (made : placement.gateStatements type inputs = .ok statements)
    : ∀ statement ∈ statements, statement.Assigns (placement.scope notes) := by
  simp only [gateStatements, bind_eq_ok] at made
  obtain ⟨whole, found, operands, all, made⟩ := made
  split at made
  · next target operands =>
      obtain rfl := pure_eq_ok.1 made
      simpa using
        ⟨_, _, _, rfl, whole?_hasWidth output found,
          Gate.combine_hasWidth (wholeOperands?_hasWidth has all)⟩
  · simp only [bind_eq_ok, pure_eq_ok] at made
    obtain ⟨bits, each, rfl⟩ := made
    intro statement member
    obtain ⟨bit, listed, some⟩ := List.mem_filterMap.mp member
    obtain rfl : bit = _ := some
    obtain ⟨place, -, there⟩ := forall₂_mem_right (mapM_eq_ok.1 each) listed
    exact gateBit?_assign output has there

/-- An inlined component becomes assignments, and no dangling wires are added. -/
theorem inlineStatements_assign {type : Primitive}
    (inlined : (Realization.ofPrimitive type placement.part.component.attributes).isInlined = true)
    (output
      : placement.part.HasEnd placement.netlist Gate.outputEnd
          placement.part.component.attributes.width)
    (has
      : ∀ endIndex ∈ Gate.inputEnds type placement.part.component.attributes,
          placement.part.HasEnd placement.netlist endIndex
            placement.part.component.attributes.width)
    {statements : List Statement}
    (made
      : Succeeds
          (placement.inlineStatements
            (Realization.ofPrimitive type placement.part.component.attributes))
          notes statements notes')
    : notes'.openWires = notes.openWires
      ∧ ∀ statement ∈ statements, statement.Assigns (placement.scope notes') := by
  have definition
      : (Realization.ofPrimitive type placement.part.component.attributes).definition
        = .inlined type := by
    cases type <;> first | rfl | cases inlined
  simp only [inlineStatements, definition, succeeds_bind, succeeds_ofExcept] at made
  obtain ⟨unconnected, _, ⟨-, rfl⟩, made⟩ := made
  split at made
  · obtain ⟨rfl, rfl⟩ := succeeds_pure.1 made
    exact ⟨rfl, by simp⟩
  split at made
  · obtain ⟨constant, rfl⟩ := succeeds_ofExcept.1 made
    exact ⟨rfl, constantStatements_assign output constant⟩
  · simp only [gateBody, succeeds_bind, succeeds_ofExcept] at made
    obtain ⟨connected, _, ⟨filtered, rfl⟩, made⟩ := made
    split at made
    · simp only [succeeds_bind] at made
      obtain ⟨_, _, warned, made⟩ := made
      obtain ⟨rfl, rfl⟩ := succeeds_pure.1 made
      exact ⟨by rw [← succeeds_modify.1 warned], by simp⟩
    · obtain ⟨gate, rfl⟩ := succeeds_ofExcept.1 made
      have within (endIndex : Nat) (member : endIndex ∈ connected) :=
        (((mem_filterM filtered).2 endIndex).1 member).1
      exact
        ⟨rfl,
          gateStatements_assign output
            (fun endIndex member => has endIndex (within endIndex member)) gate⟩

end Placement

end SchematicHdl
