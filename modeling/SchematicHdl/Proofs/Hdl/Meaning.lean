import SchematicHdl.Proofs.Hdl.Scope

/-! The meaning of expressions. A bit is low, high, floating or unknown, and the operators of both
languages compute with these levels in the same way: a floating operand is unknown to them. Under a
valuation of the declared names an expression has a list of levels, and an expression that stands
for bits of wires has a list of places as well, which can be assigned.
-/

namespace SchematicHdl.Hdl

-----------------------------------------------------------------------------------------
-- Levels
-----------------------------------------------------------------------------------------

/-- The level of one bit. -/
inductive Level where
  | low
  | high
  | floating
  | unknown
deriving DecidableEq, Repr

namespace Level

def ofBool : Bool → Level
  | false => .low
  | true => .high

def ofBit : Bit → Level
  | .zero => .low
  | .one => .high
  | .highZ => .floating

def not : Level → Level
  | .low => .high
  | .high => .low
  | _ => .unknown

def and : Level → Level → Level
  | .low, _ => .low
  | _, .low => .low
  | .high, .high => .high
  | _, _ => .unknown

def or : Level → Level → Level
  | .high, _ => .high
  | _, .high => .high
  | .low, .low => .low
  | _, _ => .unknown

def xor : Level → Level → Level
  | .low, .low => .low
  | .low, .high => .high
  | .high, .low => .high
  | .high, .high => .low
  | _, _ => .unknown

@[simp] theorem not_ofBool (a : Bool) : (ofBool a).not = ofBool !a := by cases a <;> rfl

end Level

namespace BinaryOp

def onLevels : BinaryOp → Level → Level → Level
  | .and => Level.and
  | .or => Level.or
  | .xor => Level.xor

def onBools : BinaryOp → Bool → Bool → Bool
  | .and => Bool.and
  | .or => Bool.or
  | .xor => Bool.xor

@[simp] theorem onLevels_ofBool (op : BinaryOp) (a b : Bool)
    : op.onLevels (.ofBool a) (.ofBool b) = .ofBool (op.onBools a b) := by
  cases op <;> cases a <;> cases b <;> rfl

/-- Operands under the operator, from left to right. A single operand stands for itself. -/
def fold (op : BinaryOp) : List Level → Level
  | [] => .unknown
  | first :: rest => rest.foldl op.onLevels first

/-- Operands of several bits, bit by bit. -/
def foldBitwise (op : BinaryOp) : List (List Level) → List Level
  | [] => []
  | first :: rest => rest.foldl (List.zipWith op.onLevels) first

/-- What an operator makes of vectors is at each position what it makes of their bits there, by
induction on the operands.
-/
theorem foldBitwise_map {α : Type} (op : BinaryOp) {operands : List (α → Level)}
    (some : operands ≠ []) (positions : List α)
    : op.foldBitwise (operands.map (fun operand => positions.map operand))
      = positions.map (fun position =>
          op.fold (operands.map (fun operand => operand position))) := by
  obtain ⟨first, rest, rfl⟩ := List.exists_cons_of_ne_nil some
  simp only [foldBitwise, fold, List.map_cons]
  induction rest generalizing first with
  | nil => rfl
  | cons second rest ih =>
      simp only [List.map_cons, List.foldl_cons]
      have joined
          : List.zipWith op.onLevels (positions.map first) (positions.map second)
            = positions.map (fun position => op.onLevels (first position) (second position)) := by
        rw [List.zipWith_map, List.zipWith_self]
      rw [joined]
      exact
        ih (fun position => op.onLevels (first position) (second position)) (List.cons_ne_nil _ _)

end BinaryOp

-----------------------------------------------------------------------------------------
-- Valuations
-----------------------------------------------------------------------------------------

/-- One bit of a declared name. -/
structure BitPlace where
  name : String
  bit : Nat
deriving DecidableEq, Repr

/-- What an expression is evaluated under: the values of the generics, and the widths and the levels
of the declared names.
-/
structure Valuation where
  generics : List (String × Nat)
  width : String → Nat
  level : BitPlace → Level

namespace Expr

mutual
/-- The places that an expression stands for, least significant first. An expression that is
computed has none.
-/
def places (width : String → Nat) : Expr → List BitPlace
  | .ref name => (List.range (width name)).map (BitPlace.mk name)
  | .index name position => [⟨name, position⟩]
  | .slice name high low => (List.range (high - low + 1)).map (fun i => ⟨name, low + i⟩)
  | .concat parts => (placesEach width parts).reverse.flatten
  | .const _ _ => []
  | .filled _ _ => []
  | .not _ => []
  | .binary _ _ => []
  | .equals _ _ => []

def placesEach (width : String → Nat) : List Expr → List (List BitPlace)
  | [] => []
  | part :: rest => places width part :: placesEach width rest
end

mutual
/-- The levels of an expression, least significant first. -/
def eval (valuation : Valuation) : Expr → List Level
  | .ref name => (places valuation.width (.ref name)).map valuation.level
  | .index name position => (places valuation.width (.index name position)).map valuation.level
  | .slice name high low => (places valuation.width (.slice name high low)).map valuation.level
  | .const value width => (List.range width).map (fun bit => .ofBool (value.testBit bit))
  | .filled bit width =>
      List.replicate ((width.value? valuation.generics).getD 0) (.ofBit bit)
  | .concat parts => (evalEach valuation parts).reverse.flatten
  | .not source => (eval valuation source).map Level.not
  | .binary op operands => op.foldBitwise (evalEach valuation operands)
  | .equals lhs rhs =>
      [(List.zipWith (fun a b => (Level.xor a b).not) (eval valuation lhs)
        (eval valuation rhs)).foldl Level.and .high]

def evalEach (valuation : Valuation) : List Expr → List (List Level)
  | [] => []
  | operand :: rest => eval valuation operand :: evalEach valuation rest
end

theorem placesEach_eq (width : String → Nat) (parts : List Expr)
    : placesEach width parts = parts.map (places width) := by
  induction parts with
  | nil => rfl
  | cons part rest ih => rw [placesEach, ih, List.map_cons]

theorem evalEach_eq (valuation : Valuation) (operands : List Expr)
    : evalEach valuation operands = operands.map (eval valuation) := by
  induction operands with
  | nil => rfl
  | cons operand rest ih => rw [evalEach, ih, List.map_cons]

theorem places_concat (width : String → Nat) (parts : List Expr)
    : places width (.concat parts) = (parts.map (places width)).reverse.flatten := by
  rw [places, placesEach_eq]

theorem eval_concat (valuation : Valuation) (parts : List Expr)
    : eval valuation (.concat parts) = (parts.map (eval valuation)).reverse.flatten := by
  rw [eval, evalEach_eq]

/-- A declared name, or a part of one. -/
def isSignal : Expr → Bool
  | .ref _ => true
  | .index _ _ => true
  | .slice _ _ _ => true
  | _ => false

/-- A signal has the levels that are found in its places. -/
theorem eval_of_isSignal {valuation : Valuation} {expr : Expr} (signal : expr.isSignal = true)
    : expr.eval valuation = (expr.places valuation.width).map valuation.level := by
  cases expr with
  | ref | index | slice => rw [eval]
  | const | filled | concat | not | binary | equals => cases signal

theorem isSignal_range (name : String) (high low : Nat)
    : (range name high low).isSignal = true := by
  unfold range
  split <;> rfl

/-- A range of a name stands for its bits. -/
theorem places_range (width : String → Nat) (name : String) (high low : Nat)
    : (range name high low).places width
      = (List.range (high - low + 1)).map (fun i => ⟨name, low + i⟩) := by
  unfold range
  split
  · next single => simp [places, single]
  · rfl

@[simp] theorem eval_bit (valuation : Valuation) (value : Bit)
    : (bit value).eval valuation = [.ofBit value] := by
  rw [bit, eval]
  rfl

end Expr

-----------------------------------------------------------------------------------------
-- Assignments
-----------------------------------------------------------------------------------------

/-- The places that a statement assigns, each with its level. -/
def Statement.assignedBits (valuation : Valuation) : Statement → List (BitPlace × Level)
  | .assign target value => (target.places valuation.width).zip (value.eval valuation)
  | _ => []

/-- The statement is an assignment with as many places as levels. -/
def Statement.Balanced (valuation : Valuation) (statement : Statement) : Prop :=
  ∃ target value,
    statement = .assign target value
    ∧ (target.places valuation.width).length = (value.eval valuation).length

end SchematicHdl.Hdl
