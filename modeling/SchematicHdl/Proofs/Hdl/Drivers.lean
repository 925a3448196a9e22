import SchematicHdl.Proofs.Hdl.Scope

/-! Drivers of an architecture. An assignment drives its target, and an instance drives what its
outputs are bound to. Either way the driven bits are those of the names that are used.
-/

namespace SchematicHdl.Hdl

open Outcome

-----------------------------------------------------------------------------------------
-- Driven bits
-----------------------------------------------------------------------------------------

namespace NameUse

def name : NameUse → String
  | .whole name => name
  | .bits name _ _ => name

/-- The bit of the name is used; the whole of a name has all its bits. -/
def Covers (use : NameUse) (name : String) (bit : Nat) : Prop :=
  match use with
  | .whole used => used = name
  | .bits used high low => used = name ∧ low ≤ bit ∧ bit ≤ high

instance (use : NameUse) (name : String) (bit : Nat) : Decidable (use.Covers name bit) :=
  match use with
  | .whole used => inferInstanceAs (Decidable (used = name))
  | .bits used high low => inferInstanceAs (Decidable (used = name ∧ low ≤ bit ∧ bit ≤ high))

theorem Covers.name_eq {use : NameUse} {name : String} {bit : Nat} (covers : use.Covers name bit)
    : use.name = name := by
  cases use with
  | whole => exact covers
  | bits => exact covers.1

end NameUse

namespace Expr

/-- The name is used in the expression. -/
def Names (expr : Expr) (name : String) : Prop := ∃ use ∈ expr.uses, use.name = name

/-- The bit of the name is driven where the expression is. -/
def Drives (expr : Expr) (name : String) (bit : Nat) : Prop :=
  ∃ use ∈ expr.uses, use.Covers name bit

instance (expr : Expr) (name : String) (bit : Nat) : Decidable (expr.Drives name bit) :=
  inferInstanceAs (Decidable (∃ use ∈ expr.uses, use.Covers name bit))

variable {expr : Expr} {name : String} {bit : Nat}

theorem Drives.names (drives : expr.Drives name bit) : expr.Names name := by
  obtain ⟨use, used, covers⟩ := drives
  exact ⟨use, used, covers.name_eq⟩

@[simp] theorem drives_ref {used : String} : (Expr.ref used).Drives name bit ↔ used = name := by
  simp [Drives, uses, NameUse.Covers]

@[simp] theorem drives_index {used : String} {position : Nat}
    : (Expr.index used position).Drives name bit ↔ used = name ∧ position = bit := by
  have single : position ≤ bit ∧ bit ≤ position ↔ position = bit := by omega
  simp [Drives, uses, NameUse.Covers, single]

@[simp] theorem drives_range {used : String} {high low : Nat}
    : (Expr.range used high low).Drives name bit ↔ used = name ∧ low ≤ bit ∧ bit ≤ high := by
  unfold Expr.range
  split
  · next single =>
      have same : low ≤ bit ∧ bit ≤ high ↔ low = bit := by omega
      rw [drives_index, same]
  · simp [Drives, uses, NameUse.Covers]

@[simp] theorem names_ref {used : String} : (Expr.ref used).Names name ↔ used = name := by
  simp [Names, uses, NameUse.name]

@[simp] theorem names_range {used : String} {high low : Nat}
    : (Expr.range used high low).Names name ↔ used = name := by
  unfold Expr.range
  split <;> simp [Names, uses, NameUse.name]

/-- What does not name a signal drives no bit of it. -/
theorem countP_drives_eq_zero {drivers : List Expr}
    (apart : ∀ driver ∈ drivers, ¬ driver.Names name) (bit : Nat)
    : drivers.countP (fun driver => driver.Drives name bit) = 0 :=
  List.countP_eq_zero.mpr fun driver member drives =>
    apart driver member (of_decide_eq_true drives).names

end Expr

-----------------------------------------------------------------------------------------
-- Drivers
-----------------------------------------------------------------------------------------

/-- What a statement assigns to; an instance assigns to nothing itself. -/
def Statement.targets : Statement → List Expr
  | .assign target _ => [target]
  | .conditional target _ _ => [target]
  | .select selection => [.ref selection.target]
  | .register update => [.ref update.target]
  | _ => []

def Actual.exprs : Actual → List Expr
  | .whole expr => [expr]
  | .perBit bits => bits
  | .unconnected => []

/-- What the ports of one direction are bound to in an instance of a unit. -/
def Instance.bound (inst : Instance) (unit : DesignUnit) (direction : Direction) : List Expr :=
  (unit.ports.zip inst.ports).flatMap (fun bound =>
    if bound.1.direction = direction then bound.2.actual.exprs else [])

/-- What the ports of one direction are bound to in the instances of an architecture, given the
units that are instantiated.
-/
def Architecture.bound (architecture : Architecture) (units : List DesignUnit)
    (direction : Direction)
    : List Expr :=
  (units.zip (architecture.statements.filterMap Statement.instance?)).flatMap
    (fun instantiated => instantiated.2.bound instantiated.1 direction)

/-- The targets of all assignments, and what the outputs of all instances are bound to. -/
def Architecture.drivers (architecture : Architecture) (units : List DesignUnit) : List Expr :=
  architecture.statements.flatMap Statement.targets ++ architecture.bound units .output

-----------------------------------------------------------------------------------------
-- Widths
-----------------------------------------------------------------------------------------

theorem Actual.HasWidth.exprs {scope : Scope} {actual : Actual} {width : Nat}
    (typed : actual.HasWidth scope width)
    : ∀ expr ∈ actual.exprs, ∃ width, expr.HasWidth scope width := by
  cases actual with
  | whole expr => simpa [Actual.exprs] using ⟨width, typed⟩
  | perBit bits => exact fun bit member => ⟨1, typed.2.2 bit member⟩
  | unconnected => simp [Actual.exprs]

/-- All names in an expression that has a width are in the scope. -/
theorem Expr.HasWidth.names {scope : Scope} {expr : Expr} {width : Nat}
    (typed : expr.HasWidth scope width) {name : String} (used : expr.Names name)
    : name ∈ scope.names.map Prod.fst := by
  obtain ⟨use, listed, rfl⟩ := used
  have declared := typed.declared use listed
  cases use with
  | whole name =>
      obtain ⟨width, member⟩ := declared
      exact List.mem_map.mpr ⟨_, member, rfl⟩
  | bits name high low =>
      obtain ⟨width, member, -⟩ := declared
      exact List.mem_map.mpr ⟨_, member, rfl⟩

end SchematicHdl.Hdl
