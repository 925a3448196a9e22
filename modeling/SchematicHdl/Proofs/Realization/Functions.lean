import SchematicHdl.Proofs.Netlist.Values
import SchematicHdl.Proofs.Realization.Operands
import SchematicHdl.Proofs.Realization.Totality

/-! What inlined components compute. A gate gives to each connected bit of its output its function
of the input bits that are connected at the same position, and a constant gives the bits of its
value. One assignment of vectors and assignments of single bits are two ways to say so.
-/

namespace SchematicHdl

open Hdl (BinaryOp BitPlace Expr Level Statement Valuation)
open Net (Point)
open Outcome

-----------------------------------------------------------------------------------------
-- Functions of gates
-----------------------------------------------------------------------------------------

/-- The number of set bits is odd. -/
def parity (bits : List Bool) : Bool := bits.count true % 2 = 1

namespace Primitive

/-- What a gate makes of the levels of its inputs. -/
def gateLevel : Primitive → List Level → Level
  | .and, levels => BinaryOp.and.fold levels
  | .or, levels => BinaryOp.or.fold levels
  | .xor, levels => BinaryOp.xor.fold levels
  | .nand, levels => (BinaryOp.and.fold levels).not
  | .nor, levels => (BinaryOp.or.fold levels).not
  | .xnor, levels => (BinaryOp.xor.fold levels).not
  | .not, level :: _ => level.not
  | _, _ => .unknown

/-- A gate gives a level as soon as there is an input. -/
def gateLevel? (type : Primitive) : List Level → Option Level
  | [] => none
  | levels => some (type.gateLevel levels)

theorem gateLevel?_eq (type : Primitive) {levels : List Level} (some : levels ≠ [])
    : type.gateLevel? levels = .some (type.gateLevel levels) := by
  obtain ⟨first, rest, rfl⟩ := List.exists_cons_of_ne_nil some
  rfl

/-- What a gate makes of inputs that are low or high. -/
def gateBool : Primitive → List Bool → Bool
  | .and, bits => bits.all id
  | .or, bits => bits.any id
  | .xor, bits => parity bits
  | .nand, bits => !bits.all id
  | .nor, bits => !bits.any id
  | .xnor, bits => !parity bits
  | .not, bit :: _ => !bit
  | _, _ => false

end Primitive

theorem parity_cons (bit : Bool) (bits : List Bool)
    : parity (bit :: bits) = Bool.xor bit (parity bits) := by
  cases bit <;> simp only [parity, List.count_cons] <;> grind

/-- Folding an operator over low and high levels is folding it over bits, by induction on the bits.
-/
theorem Hdl.BinaryOp.fold_ofBool (op : BinaryOp) (first : Bool) (rest : List Bool)
    : op.fold ((first :: rest).map Level.ofBool) = .ofBool (rest.foldl op.onBools first) := by
  simp only [fold, List.map_cons]
  induction rest generalizing first with
  | nil => rfl
  | cons second rest ih => simp [ih]

theorem foldl_and (first : Bool) (rest : List Bool)
    : rest.foldl Bool.and first = (first :: rest).all id := by
  induction rest generalizing first with
  | nil => simp
  | cons second rest ih => simp [ih, Bool.and_assoc]

theorem foldl_or (first : Bool) (rest : List Bool)
    : rest.foldl Bool.or first = (first :: rest).any id := by
  induction rest generalizing first with
  | nil => simp
  | cons second rest ih => simp [ih, Bool.or_assoc]

theorem foldl_xor (first : Bool) (rest : List Bool)
    : rest.foldl Bool.xor first = parity (first :: rest) := by
  induction rest generalizing first with
  | nil => cases first <;> rfl
  | cons second rest ih => simp [ih, parity_cons]

/-- On low and high levels a gate is a function of bits. -/
theorem Primitive.gateLevel_ofBool {type : Primitive} {attributes : Attributes}
    (inlined : (Realization.ofPrimitive type attributes).isInlined = true)
    (gate : type ≠ .constant) {bits : List Bool} (some : bits ≠ [])
    : type.gateLevel (bits.map Level.ofBool) = .ofBool (type.gateBool bits) := by
  obtain ⟨first, rest, rfl⟩ := List.exists_cons_of_ne_nil some
  cases type with
  | and | nand =>
      simp [gateLevel, gateBool, -List.map_cons, BinaryOp.fold_ofBool, BinaryOp.onBools, foldl_and]
  | or | nor =>
      simp [gateLevel, gateBool, -List.map_cons, BinaryOp.fold_ofBool, BinaryOp.onBools, foldl_or]
  | xor | xnor =>
      simp [gateLevel, gateBool, -List.map_cons, BinaryOp.fold_ofBool, BinaryOp.onBools, foldl_xor]
  | not => simp [gateLevel, gateBool]
  | constant => exact absurd rfl gate
  | multiplexer | demultiplexer | decoder | priorityEncoder | register => cases inlined

-----------------------------------------------------------------------------------------
-- Combined operands
-----------------------------------------------------------------------------------------

namespace Gate

/-- Operands under an operator. A single operand stands for itself. -/
def joined (op : BinaryOp) : List Expr → Expr
  | [operand] => operand
  | operands => .binary op operands

theorem combine_eq (type : Primitive) (operands : List Expr)
    : combine type operands
      = if (operator type).2 then .not (joined (operator type).1 operands)
        else joined (operator type).1 operands := by
  match operands with
  | [] | [_] | _ :: _ :: _ => rfl

variable {α : Type} {valuation : Valuation} {operands : List Expr} {levels : List (α → Level)}
  {positions : List α}

/-- Operands under an operator give at each position the fold of their levels there. -/
theorem eval_joined (op : BinaryOp) (some : operands ≠ [])
    (known : operands.map (Expr.eval valuation) = levels.map (fun level => positions.map level))
    : (joined op operands).eval valuation
      = positions.map (fun position => op.fold (levels.map (fun level => level position))) := by
  unfold joined
  split
  · next operand =>
      obtain ⟨level, rfl⟩ : ∃ level, levels = [level] :=
        List.length_eq_one_iff.mp (by simpa using (congrArg List.length known).symm)
      exact (List.cons.inj known).1
  · have several : levels ≠ [] := by
      rintro rfl
      exact some (List.map_eq_nil_iff.mp known)
    rw [Expr.eval, Expr.evalEach_eq, known, BinaryOp.foldBitwise_map op several]

/-- The operands of a gate give at each position what the gate makes of their levels there. -/
theorem eval_combine {type : Primitive} {attributes : Attributes}
    (inlined : (Realization.ofPrimitive type attributes).isInlined = true)
    (gate : type ≠ .constant) (some : operands ≠ []) (single : type = .not → operands.length = 1)
    (known : operands.map (Expr.eval valuation) = levels.map (fun level => positions.map level))
    : (combine type operands).eval valuation
      = positions.map (fun position =>
          type.gateLevel (levels.map (fun level => level position))) := by
  have plain (op : BinaryOp) := eval_joined op some known
  have negated (op : BinaryOp)
      : (Expr.not (joined op operands)).eval valuation
        = positions.map (fun position =>
            (op.fold (levels.map (fun level => level position))).not) := by
    rw [Expr.eval, plain, List.map_map]
    rfl
  rw [combine_eq]
  cases type with
  | and => exact plain .and
  | or => exact plain .or
  | xor => exact plain .xor
  | nand => exact negated .and
  | nor => exact negated .or
  | xnor => exact negated .xor
  | not =>
      obtain ⟨level, rfl⟩ : ∃ level, levels = [level] := by
        have lengths := congrArg List.length known
        rw [List.length_map, List.length_map, single rfl] at lengths
        exact List.length_eq_one_iff.mp lengths.symm
      exact negated .and
  | constant => exact absurd rfl gate
  | multiplexer | demultiplexer | decoder | priorityEncoder | register => cases inlined

/-- Operands of one bit. -/
theorem eval_combine_bits {type : Primitive} {attributes : Attributes}
    (inlined : (Realization.ofPrimitive type attributes).isInlined = true)
    (gate : type ≠ .constant) (some : operands ≠ []) (single : type = .not → operands.length = 1)
    {bits : List Level}
    (known : operands.map (Expr.eval valuation) = bits.map (fun bit => [bit]))
    : (combine type operands).eval valuation = [type.gateLevel bits] := by
  let levels : List (Unit → Level) := bits.map (fun bit _ => bit)
  have same
      : operands.map (Expr.eval valuation) = levels.map (fun level => [()].map level) := by
    rw [known, List.map_map]
    rfl
  simpa [levels, Function.comp_def] using eval_combine inlined gate some single same

end Gate

-----------------------------------------------------------------------------------------
-- Assigned bits
-----------------------------------------------------------------------------------------

/-- The levels of the inputs that are connected at a bit, in the order of the inputs. -/
def levelsAt (inputs : List ResolvedEnd) (value : Point → Level) (bit : Nat) : List Level :=
  inputs.filterMap (fun input => (input.points[bit]?.join).map value)

/-- The level that an inlined part gives to a bit of its output, if it gives one: the bit of a
constant, or the function of the inputs that are connected at the bit.
-/
def Part.outputLevel? (part : Part) (type : Primitive) (value : Point → Level) (bit : Nat)
    : Option Level :=
  if type = .constant then some (.ofBool (part.component.attributes.constantValue.testBit bit))
  else type.gateLevel? (levelsAt part.ends.tail value bit)

namespace Netlist

/-- The place of a bit of an end with its level, if the bit is connected and has one. -/
def bitWith? (netlist : Netlist) (resolved : ResolvedEnd) (level? : Nat → Option Level) (bit : Nat)
    : Option (BitPlace × Level) := do
  let point ← resolved.points[bit]?.join
  let level ← level? bit
  return (netlist.place point, level)

/-- The connected bits of an end that have a level, in bit order. -/
def bitsWith (netlist : Netlist) (resolved : ResolvedEnd) (level? : Nat → Option Level)
    : List (BitPlace × Level) :=
  (List.range resolved.width).filterMap (netlist.bitWith? resolved level?)

/-- The statements assign these levels to these places, each place once for each time that it is
listed, and they do nothing else.
-/
def Assigns (netlist : Netlist) (value : Point → Level) (statements : List Statement)
    (bits : List (BitPlace × Level))
    : Prop :=
  (∀ statement ∈ statements, statement.Balanced (netlist.valuation value))
  ∧ statements.flatMap (Statement.assignedBits (netlist.valuation value)) = bits

variable {netlist : Netlist} {value : Point → Level}

theorem assigns_nil : netlist.Assigns value [] [] := ⟨List.forall_mem_nil _, rfl⟩

theorem assigns_one {target source : Expr} {places : List BitPlace} {levels : List Level}
    (stands : target.places netlist.widthOf = places)
    (evaluates : source.eval (netlist.valuation value) = levels)
    (length : places.length = levels.length)
    : netlist.Assigns value [.assign target source] (places.zip levels) := by
  have same : (netlist.valuation value).width = netlist.widthOf := rfl
  refine ⟨?_, ?_⟩
  · rw [List.forall_mem_singleton]
    exact ⟨target, source, rfl, by rw [same, stands, evaluates, length]⟩
  · rw [List.flatMap_singleton, Statement.assignedBits, same, stands, evaluates]

/-- One bit after the other. -/
theorem assigns_filterMap {statement? : Nat → Option Statement}
    {bit? : Nat → Option (BitPlace × Level)} {positions : List Nat}
    (each
      : ∀ bit ∈ positions, netlist.Assigns value (statement? bit).toList (bit? bit).toList)
    : netlist.Assigns value (positions.filterMap statement?) (positions.filterMap bit?) := by
  refine ⟨fun statement member => ?_, ?_⟩
  · obtain ⟨bit, listed, made⟩ := List.mem_filterMap.mp member
    exact (each bit listed).1 statement (Option.mem_toList.mpr made)
  · rw [List.filterMap_eq_flatMap_toList, List.filterMap_eq_flatMap_toList, List.flatMap_assoc]
    exact List.flatMap_congr fun bit listed => (each bit listed).2

/-- One assignment of an end that is one slice assigns every bit of the end. -/
theorem assigns_endExpr? {resolved : ResolvedEnd}
    (rooted : ∀ point, some point ∈ resolved.points → netlist.nets.Rooted point)
    {target source : Expr} (found : netlist.endExpr? resolved = some target)
    {level : Nat → Level} {level? : Nat → Option Level}
    (evaluates : source.eval (netlist.valuation value) = (List.range resolved.width).map level)
    (given : ∀ bit < resolved.width, level? bit = some (level bit))
    : netlist.Assigns value [.assign target source] (netlist.bitsWith resolved level?) := by
  obtain ⟨first, points, -, stands⟩ := places_endExpr? rooted found
  have bits
      : netlist.bitsWith resolved level?
        = ((first.consecutive resolved.width).map netlist.place).zip
            ((List.range resolved.width).map level) := by
    rw [Point.consecutive, List.map_map, List.zip_map', bitsWith, ← List.filterMap_eq_map]
    refine List.filterMap_congr fun bit listed => ?_
    have inside := List.mem_range.mp listed
    simp [bitWith?, points, Point.consecutive, inside, given bit inside]
  rw [bits]
  exact assigns_one stands evaluates (by simp [Point.consecutive])

/-- An assignment of one point. -/
theorem assigns_pointExpr {point : Point} (rooted : netlist.nets.Rooted point) {source : Expr}
    {level : Level} (evaluates : source.eval (netlist.valuation value) = [level])
    : netlist.Assigns value [.assign (netlist.pointExpr point) source]
        [(netlist.place point, level)] :=
  assigns_one (places_pointExpr rooted) evaluates rfl

end Netlist

-----------------------------------------------------------------------------------------
-- Constants
-----------------------------------------------------------------------------------------

namespace Placement

variable {placement : Placement} {output : ResolvedEnd}

/-- A constant assigns its bits to the connected bits of its output. -/
theorem constantStatements_assigns (found : placement.part.end? Gate.outputEnd = some output)
    (width : output.width = placement.part.component.attributes.width)
    (narrow : output.width ≤ maxWidth)
    (rooted : ∀ point, some point ∈ output.points → placement.netlist.nets.Rooted point)
    : ∃ statements,
        placement.constantStatements = .ok statements
        ∧ ∀ value,
            placement.netlist.Assigns value statements
              (placement.netlist.bitsWith output (fun bit =>
                some
                  (.ofBool (placement.part.component.attributes.constantValue.testBit bit)))) := by
  set value := placement.part.component.attributes.constantValue with defined
  have kept {bit : Nat} (inside : bit < output.width)
      : (value % Nat.pow 2 (min output.width maxWidth)).testBit bit = value.testBit bit := by
    rw [Nat.min_eq_left narrow]
    exact (Nat.testBit_mod_two_pow _ _ _).trans (by simp [inside])
  simp only [constantStatements, whole?_eq found, ← defined, ← width, bind, Except.bind, pure,
    Except.pure]
  cases whole : placement.netlist.endExpr? output with
  | some target =>
      refine ⟨_, rfl, fun levels => Netlist.assigns_endExpr? rooted whole ?_ fun _ _ => rfl⟩
      rw [Expr.eval]
      refine List.map_congr_left fun bit listed => ?_
      rw [kept (List.mem_range.mp listed)]
  | none =>
      have targets
          : (List.range output.width).mapM (fun bit => placement.bit? Gate.outputEnd bit)
            = .ok
                ((List.range output.width).map (fun bit =>
                  (output.points[bit]?.join).map placement.netlist.pointExpr)) :=
        mapM_eq_map fun bit _ => bit?_eq found bit
      have numbered {α : Type} (f : Nat → α)
          : ((List.range output.width).map f).zipIdx
            = (List.range output.width).map (fun bit => (f bit, bit)) := by
        refine List.ext_getElem (by simp) fun i here there => by simp
      simp only [targets, numbered, List.filterMap_map]
      refine ⟨_, rfl, fun levels => ?_⟩
      refine Netlist.assigns_filterMap fun bit listed => ?_
      cases connected : output.points[bit]?.join with
      | none => simpa [Netlist.bitWith?, connected] using Netlist.assigns_nil
      | some point =>
          have here : some point ∈ output.points :=
            List.mem_of_getElem? (Option.join_eq_some_iff.mp connected)
          simp only [Function.comp_apply, Netlist.bitWith?, connected, Option.map_some,
            kept (List.mem_range.mp listed)]
          refine Netlist.assigns_pointExpr (rooted point here) ?_
          rw [Expr.eval_bit]
          cases value.testBit bit <;> rfl

-----------------------------------------------------------------------------------------
-- Gates
-----------------------------------------------------------------------------------------

section Gates

variable {type : Primitive} {attributes : Attributes}
  (inlined : (Realization.ofPrimitive type attributes).isInlined = true) (gate : type ≠ .constant)
  {ends : List Nat} {inputs : List ResolvedEnd} (single : type = .not → inputs.length ≤ 1)
  (numbered
    : List.Forall₂ (fun endIndex input => placement.part.end? endIndex = some input) ends inputs)
  (found : placement.part.end? Gate.outputEnd = some output)
  (outputRooted : ∀ point, some point ∈ output.points → placement.netlist.nets.Rooted point)
  (rooted
    : ∀ input ∈ inputs,
        ∀ point, some point ∈ input.points → placement.netlist.nets.Rooted point)

/-- The statement for one bit of the output of a gate, if there is one. -/
def bitStatement? (netlist : Netlist) (type : Primitive) (output : ResolvedEnd)
    (inputs : List ResolvedEnd) (bit : Nat)
    : Option Statement :=
  match output.points[bit]?.join, inputs.filterMap (fun input => input.points[bit]?.join) with
  | some point, first :: rest =>
      some
        (.assign (netlist.pointExpr point)
          (Gate.combine type ((first :: rest).map netlist.pointExpr)))
  | _, _ => none

include numbered in
/-- Reading all inputs reads them one by one. -/
theorem mapM_inputs {α : Type} (read : Nat → Except GenerationError α) (known : ResolvedEnd → α)
    (each
      : ∀ endIndex input,
          placement.part.end? endIndex = some input → read endIndex = .ok (known input))
    : ends.mapM read = .ok (inputs.map known) :=
  mapM_eq_ok.2 (List.forall₂_map_right_iff.mpr (numbered.imp each))

include numbered found in
theorem gateBit?_eq (bit : Nat)
    : placement.gateBit? type ends bit
      = .ok (bitStatement? placement.netlist type output inputs bit) := by
  have operands :=
    mapM_inputs numbered (fun endIndex => placement.bit? endIndex bit)
      (fun input => (input.points[bit]?.join).map placement.netlist.pointExpr)
      fun _ _ there => bit?_eq there bit
  have listed
      : (inputs.map (fun input =>
            (input.points[bit]?.join).map placement.netlist.pointExpr)).filterMap id
        = (inputs.filterMap (fun input => input.points[bit]?.join)).map
            placement.netlist.pointExpr := by
    rw [List.filterMap_map, List.map_filterMap]
    rfl
  simp only [gateBit?, bit?_eq found, operands, listed, bitStatement?, bind, Except.bind, pure,
    Except.pure]
  cases output.points[bit]?.join with
  | none => rfl
  | some point =>
      cases inputs.filterMap (fun input => input.points[bit]?.join) with
      | nil => rfl
      | cons first rest => rfl

include inlined gate single outputRooted rooted in
/-- The statement for one bit assigns to it what the gate makes of the inputs there. -/
theorem bitStatement?_assigns (value : Point → Level) (bit : Nat)
    : placement.netlist.Assigns value
        (bitStatement? placement.netlist type output inputs bit).toList
        (placement.netlist.bitWith? output (fun bit =>
          type.gateLevel? (levelsAt inputs value bit)) bit).toList := by
  have levels
      : levelsAt inputs value bit
        = (inputs.filterMap (fun input => input.points[bit]?.join)).map value := by
    rw [levelsAt, List.map_filterMap]
  cases connected : output.points[bit]?.join with
  | none => simpa [bitStatement?, Netlist.bitWith?, connected] using Netlist.assigns_nil
  | some point =>
      cases points : inputs.filterMap (fun input => input.points[bit]?.join) with
      | nil =>
          simpa [bitStatement?, Netlist.bitWith?, connected, points, levels, Primitive.gateLevel?]
            using Netlist.assigns_nil
      | cons first rest =>
          have here : some point ∈ output.points :=
            List.mem_of_getElem? (Option.join_eq_some_iff.mp connected)
          have known {operand : Point} (member : operand ∈ first :: rest)
              : placement.netlist.nets.Rooted operand := by
            obtain ⟨input, listed, there⟩ := List.mem_filterMap.mp (points ▸ member)
            exact
              rooted input listed operand
                (List.mem_of_getElem? (Option.join_eq_some_iff.mp there))
          have evaluates
              : ((first :: rest).map placement.netlist.pointExpr).map
                    (Expr.eval (placement.netlist.valuation value))
                = ((first :: rest).map value).map (fun level => [level]) := by
            rw [List.map_map, List.map_map]
            exact List.map_congr_left fun operand member =>
              Netlist.eval_pointExpr value (known member)
          have one (inverter : type = .not)
              : ((first :: rest).map placement.netlist.pointExpr).length = 1 := by
            have fewer : (first :: rest).length ≤ inputs.length :=
              points ▸ List.length_filterMap_le _ _
            have most := single inverter
            simp only [List.length_map, List.length_cons] at fewer ⊢
            omega
          simp only [bitStatement?, Netlist.bitWith?, connected, points, levels]
          exact
            Netlist.assigns_pointExpr (outputRooted point here)
              (Gate.eval_combine_bits inlined gate (by simp) one evaluates)

include rooted in
/-- Operands that are whole ends have at each bit the level of the end there. -/
theorem eval_wholes {width : Nat} (wide : ∀ input ∈ inputs, input.width = width)
    {operands : List Expr}
    (whole : inputs.map placement.netlist.endExpr? = operands.map some) (value : Point → Level)
    : ∃ levels : List (Nat → Level),
        operands.map (Expr.eval (placement.netlist.valuation value))
          = levels.map (fun level => (List.range width).map level)
        ∧ ∀ bit < width, levelsAt inputs value bit = levels.map (fun level => level bit) := by
  let level (input : ResolvedEnd) (bit : Nat) : Level :=
    ((input.points[bit]?.join).map value).getD .unknown
  have known (input : ResolvedEnd) (listed : input ∈ inputs)
      : ∃ operand first,
          placement.netlist.endExpr? input = some operand
          ∧ input.points = (Net.Point.consecutive first width).map some
          ∧ operand.eval (placement.netlist.valuation value)
            = (first.consecutive width).map value := by
    obtain ⟨operand, -, found⟩ := List.mem_map.mp (whole ▸ List.mem_map_of_mem listed)
    obtain ⟨first, points, evaluates⟩ := Netlist.eval_endExpr? (rooted input listed) found.symm
    rw [wide input listed] at points evaluates
    exact ⟨operand, first, found.symm, points, evaluates value⟩
  refine ⟨inputs.map level, ?_, fun bit inside => ?_⟩
  · have read
        : operands.map (Expr.eval (placement.netlist.valuation value))
          = inputs.map (fun input =>
              ((placement.netlist.endExpr? input).map
                (Expr.eval (placement.netlist.valuation value))).getD []) := by
      have mapped :=
        congrArg
          (List.map (fun operand? : Option Expr =>
            (operand?.map (Expr.eval (placement.netlist.valuation value))).getD []))
          whole
      simpa [Function.comp_def] using mapped.symm
    rw [read, List.map_map]
    refine List.map_congr_left fun input listed => ?_
    obtain ⟨operand, first, found, points, evaluates⟩ := known input listed
    rw [found, Option.map_some, Option.getD_some, evaluates, Net.Point.consecutive, List.map_map]
    refine List.map_congr_left fun bit inside => ?_
    simp [level, points, Net.Point.consecutive, List.mem_range.mp inside]
  · rw [levelsAt, List.map_map, ← List.filterMap_eq_map]
    refine List.filterMap_congr fun input listed => ?_
    obtain ⟨-, first, -, points, -⟩ := known input listed
    simp [level, points, Net.Point.consecutive, inside]

include inlined gate single numbered found outputRooted rooted in
/-- A gate with inputs assigns to each connected bit of its output what it makes of the inputs. -/
theorem gateStatements_assigns (some : inputs ≠ [])
    (width : output.width = placement.part.component.attributes.width)
    (wide : ∀ input ∈ inputs, input.width = output.width)
    : ∃ statements,
        placement.gateStatements type ends = .ok statements
        ∧ ∀ value,
            placement.netlist.Assigns value statements
              (placement.netlist.bitsWith output (fun bit =>
                type.gateLevel? (levelsAt inputs value bit))) := by
  have wholes := mapM_inputs numbered placement.whole? _ fun _ _ there => whole?_eq there
  have bits
      : (List.range output.width).mapM (placement.gateBit? type ends)
        = .ok
            ((List.range output.width).map
              (bitStatement? placement.netlist type output inputs)) :=
    mapM_eq_map fun bit _ => gateBit?_eq numbered found bit
  simp only [gateStatements, wholeOperands?, whole?_eq found, wholes, ← width, bits, bind,
    Except.bind, pure, Except.pure]
  split
  · next target operands slice all =>
      have whole := eq_of_mapM_id all
      refine ⟨_, rfl, fun value => ?_⟩
      obtain ⟨levels, evaluates, given⟩ := eval_wholes rooted wide whole value
      have count : operands.length = inputs.length := by
        simpa using (congrArg List.length whole).symm
      have several : operands ≠ [] := by
        rintro rfl
        exact some (List.length_eq_zero_iff.mp count.symm)
      have one (inverter : type = .not) : operands.length = 1 := by
        have most := single inverter
        have positive := List.length_pos_iff.mpr several
        omega
      have combined := Gate.eval_combine inlined gate several one evaluates
      refine Netlist.assigns_endExpr? outputRooted slice combined fun bit inside => ?_
      rw [given bit inside]
      refine type.gateLevel?_eq fun none => several ?_
      have empty : levels = [] := List.map_eq_nil_iff.mp none
      simpa [empty] using evaluates
  · refine ⟨_, rfl, fun value => ?_⟩
    rw [List.filterMap_map]
    exact Netlist.assigns_filterMap fun bit _ =>
      bitStatement?_assigns inlined gate single outputRooted rooted value bit

/-- Inputs that are not connected at all have no levels. -/
theorem levelsAt_connected (inputs : List ResolvedEnd) (value : Point → Level) (bit : Nat)
    : levelsAt (inputs.filter (fun input => !input.isUnconnected)) value bit
      = levelsAt inputs value bit := by
  rw [levelsAt, levelsAt, List.filterMap_filter]
  refine List.filterMap_congr fun input _ => ?_
  cases unconnected : input.isUnconnected with
  | true => simp [ResolvedEnd.join_eq_none unconnected bit]
  | false => simp

include numbered in
/-- The connected inputs are found, with their ends. -/
theorem filterM_inputs
    : ∃ used,
        ends.filterM (fun endIndex => do return !(← placement.isUnconnected endIndex)) = .ok used
        ∧ List.Forall₂ (fun endIndex input => placement.part.end? endIndex = some input) used
            (inputs.filter (fun input => !input.isUnconnected)) := by
  let passes (endIndex : Nat) : Bool :=
    ((placement.part.end? endIndex).map (fun input => !input.isUnconnected)).getD false
  refine ⟨ends.filter passes, filterM_eq_ok fun endIndex listed => ?_, ?_⟩
  · obtain ⟨input, -, there⟩ := forall₂_mem_right numbered.flip listed
    rw [isUnconnected_eq there]
    simp [passes, there, bind, Except.bind, pure, Except.pure]
  · refine List.rel_filter (fun endIndex input there => ?_) numbered
    simp [passes, there]

end Gates

/-- A gate assigns to each connected bit of its output what it makes of the inputs there. -/
theorem gateBody_assigns {type : Primitive}
    (inlined : (Realization.ofPrimitive type placement.part.component.attributes).isInlined = true)
    (gate : type ≠ .constant) {inputs : List ResolvedEnd}
    (single : type = .not → inputs.length ≤ 1)
    (numbered
      : List.Forall₂ (fun endIndex input => placement.part.end? endIndex = some input)
          (Gate.inputEnds type placement.part.component.attributes) inputs)
    (found : placement.part.end? Gate.outputEnd = some output)
    (outputRooted : ∀ point, some point ∈ output.points → placement.netlist.nets.Rooted point)
    (rooted
      : ∀ input ∈ inputs,
          ∀ point, some point ∈ input.points → placement.netlist.nets.Rooted point)
    (width : output.width = placement.part.component.attributes.width)
    (wide : ∀ input ∈ inputs, input.width = output.width) {notes notes' : Notes}
    {statements : List Statement}
    (made : Succeeds (placement.gateBody type) notes statements notes') (value : Point → Level)
    : placement.netlist.Assigns value statements
        (placement.netlist.bitsWith output (fun bit =>
          type.gateLevel? (levelsAt inputs value bit))) := by
  obtain ⟨used, filtered, connected⟩ := filterM_inputs numbered
  simp only [gateBody, succeeds_bind, succeeds_ofExcept, filtered] at made
  obtain ⟨_, _, ⟨⟨⟩, rfl⟩, made⟩ := made
  split at made
  · next empty =>
      simp only [succeeds_bind] at made
      obtain ⟨_, _, -, made⟩ := made
      obtain ⟨rfl, -⟩ := succeeds_pure.1 made
      rw [List.isEmpty_iff.mp empty] at connected
      have silent (bit : Nat) : levelsAt inputs value bit = [] := by
        rw [← levelsAt_connected, List.forall₂_nil_left_iff.mp connected]
        rfl
      have nothing
          : placement.netlist.bitsWith output (fun bit =>
              type.gateLevel? (levelsAt inputs value bit))
            = [] := by
        simp [Netlist.bitsWith, Netlist.bitWith?, silent, Primitive.gateLevel?]
      rw [nothing]
      exact Netlist.assigns_nil
  · next some =>
      have several : inputs.filter (fun input => !input.isUnconnected) ≠ [] := by
        intro none
        rw [none] at connected
        exact some (List.isEmpty_iff.mpr (List.forall₂_nil_right_iff.mp connected))
      have within {input : ResolvedEnd}
          (member : input ∈ inputs.filter (fun input => !input.isUnconnected))
          : input ∈ inputs :=
        (List.mem_filter.mp member).1
      have fewer (inverter : type = .not)
          : (inputs.filter (fun input => !input.isUnconnected)).length ≤ 1 :=
        Nat.le_trans (List.length_filter_le _ _) (single inverter)
      obtain ⟨_, formed, assigns⟩ :=
        gateStatements_assigns inlined gate fewer connected found outputRooted
          (fun input member => rooted input (within member)) several width
          (fun input member => wide input (within member))
      obtain ⟨same, -⟩ := succeeds_ofExcept.1 made
      obtain rfl := Except.ok.inj (formed.symm.trans same)
      simpa only [levelsAt_connected] using assigns value

end Placement

-----------------------------------------------------------------------------------------
-- Inlined parts
-----------------------------------------------------------------------------------------

/-- The ends of an inlined component are its output, followed by its inputs. -/
theorem Gate.ends_cons {type : Primitive} {attributes : Attributes}
    (inlined : (Realization.ofPrimitive type attributes).isInlined = true)
    : type.ends attributes
      = .output attributes.width
        :: (inputEnds type attributes).map (fun _ => .input attributes.width) := by
  cases type with
  | and | or | xor | nand | nor | xnor =>
      simp [Primitive.ends, Primitive.endsFor, inputEnds, Function.comp_def, List.map_const']
  | not | constant => rfl
  | multiplexer | demultiplexer | decoder | priorityEncoder | register => cases inlined

/-- The ends of an inlined part: its output and its inputs, all of one width. -/
structure Part.InlinedEnds (part : Part) (output : ResolvedEnd) (inputs : List ResolvedEnd)
    : Prop where
  ends_eq : part.ends = output :: inputs
  output_direction : output.direction = .output
  input_direction : ∀ input ∈ inputs, input.direction = .input
  wide : ∀ input ∈ inputs, input.width = output.width

/-- What is known of an inlined part from its component. -/
theorem Netlist.Holds.inlinedEnds {library : Library} {netlists : List Netlist} {netlist : Netlist}
    {part : Part} (holds : Holds library netlists netlist part.component part) {type : Primitive}
    (kind : part.component.kind = .primitive type)
    (inlined : (Realization.ofPrimitive type part.component.attributes).isInlined = true)
    : ∃ output inputs,
        part.InlinedEnds output inputs
        ∧ output.width = part.component.attributes.width
        ∧ List.Forall₂ (fun endIndex input => part.end? endIndex = some input)
            (Gate.inputEnds type part.component.attributes) inputs
        ∧ ∀ resolved ∈ part.ends,
            ∀ point, some point ∈ resolved.points → netlist.nets.Rooted point := by
  have ends := holds.ends
  rw [Library.ends, kind] at ends
  simp only [Gate.ends_cons inlined] at ends
  obtain ⟨output, inputs, first, rest, listed⟩ := List.forall₂_cons_left_iff.mp ends
  rw [List.forall₂_map_left_iff] at rest
  refine ⟨output, inputs, ⟨listed, first.direction_eq, fun input member => ?_, ?_⟩, first.width_eq,
    ?_, ?_⟩
  · obtain ⟨_, -, attached⟩ := forall₂_mem_right rest member
    exact attached.direction_eq
  · intro input member
    obtain ⟨_, -, attached⟩ := forall₂_mem_right rest member
    exact attached.width_eq.trans first.width_eq.symm
  · refine List.forall₂_iff_get.mpr ⟨rest.length_eq, fun i here there => ?_⟩
    simp [Part.end?, listed, Gate.inputEnds]
  · intro resolved member point connected
    rw [listed] at member
    rcases List.mem_cons.mp member with rfl | member
    · exact first.rooted point connected
    · obtain ⟨_, -, attached⟩ := forall₂_mem_right rest member
      exact attached.rooted point connected

/-- An inlined part assigns a level to each connected bit of its output that it has one for, and
nothing else.
-/
theorem Realization.inlineStatements_assigns {library : Library} {netlists : List Netlist}
    (placement : Placement)
    (holds
      : Netlist.Holds library netlists placement.netlist placement.part.component placement.part)
    (supported : placement.part.component.Supported) {type : Primitive}
    (kind : placement.part.component.kind = .primitive type)
    (inlined : (ofPrimitive type placement.part.component.attributes).isInlined = true)
    {notes notes' : Notes} {statements : List Statement}
    (made
      : Succeeds
          (placement.inlineStatements
            (ofPrimitive type placement.part.component.attributes))
          notes statements notes')
    : ∃ output inputs,
        placement.part.InlinedEnds output inputs
        ∧ ∀ value,
            placement.netlist.Assigns value statements
              (placement.netlist.bitsWith output (placement.part.outputLevel? type value)) := by
  obtain ⟨output, inputs, ends, width, numbered, rooted⟩ := holds.inlinedEnds kind inlined
  refine ⟨output, inputs, ends, fun value => ?_⟩
  have found : placement.part.end? Gate.outputEnd = some output := by
    rw [Part.end?, ends.ends_eq]
    rfl
  have outputRooted := rooted output (ends.ends_eq ▸ List.mem_cons_self)
  have definition
      : (ofPrimitive type placement.part.component.attributes).definition = .inlined type := by
    cases type <;> first | rfl | cases inlined
  simp only [Placement.inlineStatements, definition, succeeds_bind, succeeds_ofExcept,
    Placement.isUnconnected_eq found] at made
  obtain ⟨_, _, ⟨⟨⟩, rfl⟩, made⟩ := made
  split at made
  · next unconnected =>
      obtain ⟨rfl, -⟩ := succeeds_pure.1 made
      have nothing
          : placement.netlist.bitsWith output (placement.part.outputLevel? type value) = [] := by
        simp [Netlist.bitsWith, Netlist.bitWith?, ResolvedEnd.join_eq_none unconnected]
      rw [nothing]
      exact Netlist.assigns_nil
  split at made
  · next constant =>
      subst constant
      simp only [Component.Supported, kind] at supported
      have narrow : output.width ≤ maxWidth :=
        width ▸ (Primitive.supportedWidth supported rfl).2
      obtain ⟨_, formed, assigns⟩ :=
        Placement.constantStatements_assigns found width narrow outputRooted
      obtain ⟨same, -⟩ := succeeds_ofExcept.1 made
      obtain rfl := Except.ok.inj (formed.symm.trans same)
      exact assigns value
  · next gate =>
      have single (inverter : type = .not) : inputs.length ≤ 1 := by
        subst inverter
        exact Nat.le_of_eq numbered.length_eq.symm
      have level
          : placement.part.outputLevel? type value
            = fun bit => type.gateLevel? (levelsAt inputs value bit) := by
        funext bit
        rw [Part.outputLevel?, if_neg gate, ends.ends_eq, List.tail_cons]
      rw [level]
      exact
        Placement.gateBody_assigns inlined gate single numbered found outputRooted
          (fun input member => rooted input (ends.ends_eq ▸ List.mem_cons_of_mem _ member)) width
          ends.wide made value

namespace Hierarchy

variable {library : Library} {top : CircuitRef} {hierarchy : Hierarchy}

/-- Every gate and every constant of an analyzed design becomes statements, wherever and for
whichever clocks its circuit is emitted, and these assign to the connected bits of its output what
it computes, under every valuation of the nets.
-/
theorem analyze_computes [Machine] (built : library.Built) (h : analyze library top = .ok hierarchy)
    {netlist : Netlist} (member : netlist ∈ hierarchy.netlists) {part : Part}
    (held : part ∈ netlist.parts) {type : Primitive}
    (kind : part.component.kind = .primitive type)
    (inlined : (Realization.ofPrimitive type part.component.attributes).isInlined = true)
    (label : String) (mode : ClockMode) (notes : Notes)
    : ∃ output inputs statements notes',
        part.InlinedEnds output inputs
        ∧ Succeeds
            (Placement.inlineStatements ⟨netlist, part, label, mode⟩
              (Realization.ofPrimitive type part.component.attributes))
            notes statements notes'
        ∧ (∀ value,
            netlist.Assigns value statements
              (netlist.bitsWith output (part.outputLevel? type value)))
        ∧ (type ≠ .constant
            → ∀ bits,
                bits ≠ []
                → type.gateLevel (bits.map Level.ofBool) = .ofBool (type.gateBool bits)) := by
  obtain ⟨holds, supported⟩ := (sound_of_analyze built.wellFormed h).part member held
  let placement : Placement := ⟨netlist, part, label, mode⟩
  have total
      : Total
          (placement.inlineStatements (Realization.ofPrimitive type part.component.attributes)) :=
    @Realization.Resolves.total_inlineStatements hierarchy library placement .vhdl _
      (.primitive kind) holds inlined
  obtain ⟨statements, notes', made⟩ := total notes
  obtain ⟨output, inputs, ends, assigns⟩ :=
    Realization.inlineStatements_assigns placement holds supported kind inlined made
  exact
    ⟨output, inputs, statements, notes', ends, made, assigns,
      fun gate _ => Primitive.gateLevel_ofBool inlined gate⟩

/-- A gate of two bits with an input that lacks its upper bit, and one that nothing is connected to.
-/
def gateSteps : List BuildStep :=
  [
    .circuit "Main",
    .wire 0 2,
    .wire 0 2,
    .wire 0 1,
    .primitive 0 .xnor (.ofList [("width", .number 2), ("inputs", .number 3)]),
    .connect 0 0 0 ⟨0, 0⟩,
    .connect 0 0 1 ⟨0, 1⟩,
    .connectBits 0 0 2 [some (⟨0, 2⟩, 0), none]
  ]

/-- The gate compares both inputs on its lower bit and passes on one of them, negated, on the upper
one.
-/
theorem xnor_computes
    : ∃ library hierarchy netlist part,
        library.Built
        ∧ analyze library ⟨0, 0, "Main"⟩ = .ok hierarchy
        ∧ netlist ∈ hierarchy.netlists
        ∧ part ∈ netlist.parts
        ∧ part.ends
          = [⟨.output, [some ⟨0, 0⟩, some ⟨0, 1⟩]⟩, ⟨.input, [some ⟨1, 0⟩, some ⟨1, 1⟩]⟩,
              ⟨.input, [some ⟨2, 0⟩, none]⟩, ⟨.input, [none, none]⟩]
        ∧ ∃ output inputs statements notes',
            part.InlinedEnds output inputs
            ∧ Succeeds
                (Placement.inlineStatements ⟨netlist, part, "", .derived⟩
                  (Realization.ofPrimitive .xnor part.component.attributes))
                .empty statements notes'
            ∧ (∀ value,
                netlist.Assigns value statements
                  (netlist.bitsWith output (part.outputLevel? .xnor value)))
            ∧ (Primitive.xnor ≠ .constant
                → ∀ bits,
                    bits ≠ []
                    → Primitive.xnor.gateLevel (bits.map Level.ofBool)
                      = .ofBool (Primitive.xnor.gateBool bits)) := by
  have evaluated
      : (analyzeBuilt? gateSteps ⟨0, 0, "Main"⟩).map (fun result =>
            result.2.netlists.any (fun netlist =>
              netlist.parts.any (fun part =>
                part.component.kind == .primitive .xnor
                && part.ends
                  == [⟨.output, [some ⟨0, 0⟩, some ⟨0, 1⟩]⟩, ⟨.input, [some ⟨1, 0⟩, some ⟨1, 1⟩]⟩,
                    ⟨.input, [some ⟨2, 0⟩, none]⟩, ⟨.input, [none, none]⟩])))
        = some true := by
    decide +kernel
  obtain ⟨⟨library, hierarchy⟩, found, facts⟩ := Option.map_eq_some_iff.mp evaluated
  obtain ⟨built, analyzed⟩ := built_of_analyzeBuilt? found
  simp only [List.any_eq_true, Bool.and_eq_true, beq_iff_eq] at facts
  obtain ⟨netlist, member, part, held, kind, ends⟩ := facts
  exact
    ⟨library, hierarchy, netlist, part, built, analyzed, member, held, ends,
      analyze_computes built analyzed member held kind rfl "" .derived .empty⟩

end Hierarchy

end SchematicHdl
