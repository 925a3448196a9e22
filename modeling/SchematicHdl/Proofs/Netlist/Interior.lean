import SchematicHdl.Proofs.Hdl.Drivers
import SchematicHdl.Proofs.Netlist.Expressions
import SchematicHdl.Proofs.Netlist.Packing

/-! The interior of a circuit and its boundary. Nets and dangling wires are inside; what has a width
without any port around it uses them only. A range of a bubble bus drives the indices in it and
nothing else.
-/

namespace SchematicHdl

open Hdl (Expr Scope Statement)
open Net (Point)

namespace Netlist

variable {netlist : Netlist} {mode : ClockMode} {openWires more : List String} {expr : Expr}

-----------------------------------------------------------------------------------------
-- Nets and dangling wires
-----------------------------------------------------------------------------------------

/-- The same nets without a boundary. -/
def interior (netlist : Netlist) : Netlist :=
  { netlist with parts := [], bubbles := .zero, clockTrees := [] }

/-- The names of the nets and of dangling wires. -/
def interiorNames (netlist : Netlist) (openWires : List String) : List String :=
  netlist.nets.rootNets.map netlist.nets.nameAt ++ openWires

theorem interior_scope_names
    : (netlist.interior.scope mode openWires).names.map Prod.fst
      = netlist.interiorNames openWires := by
  have ports : (netlist.interior.form mode).ports = [] := by
    simp [interior, form, Form.ports, Form.drivingPorts, needsGlobalClock, bubblePorts, pinPorts,
      pins, PerBus.get, BubbleCounts.zero]
  rw [scope, ports]
  simp [interiorNames, interior, Function.comp_def]

/-- The expression uses nets and dangling wires only. -/
def Interior (netlist : Netlist) (openWires : List String) (expr : Expr) : Prop :=
  ∀ name, expr.Names name → name ∈ netlist.interiorNames openWires

theorem Interior.mono (inside : netlist.Interior openWires expr) (within : openWires ⊆ more)
    : netlist.Interior more expr :=
  fun name used =>
    List.append_subset.mpr
      ⟨List.subset_append_left _ _, List.Subset.trans within (List.subset_append_right _ _)⟩
      (inside name used)

theorem interior_of_hasWidth {width : Nat}
    (typed : expr.HasWidth (netlist.interior.scope mode openWires) width)
    : netlist.Interior openWires expr := by
  intro name used
  have known := typed.names used
  rwa [interior_scope_names] at known

theorem interior_pointExpr {point : Point} (rooted : netlist.nets.Rooted point)
    : netlist.Interior openWires (netlist.pointExpr point) := by
  have typed
      : (netlist.interior.pointExpr point).HasWidth (netlist.interior.scope .derived openWires) 1 :=
    pointExpr_hasWidth rooted
  exact interior_of_hasWidth typed

theorem interior_sliceExpr {first : Point} {width : Nat}
    (rooted : netlist.nets.RootedRange first width)
    : netlist.Interior openWires (netlist.sliceExpr first width) := by
  have typed
      : (netlist.interior.sliceExpr first width).HasWidth
          (netlist.interior.scope .derived openWires) width :=
    sliceExpr_hasWidth rooted
  exact interior_of_hasWidth typed

theorem interior_endExpr? {resolved : ResolvedEnd}
    (rooted : ∀ point, some point ∈ resolved.points → netlist.nets.Rooted point)
    (found : netlist.endExpr? resolved = some expr)
    : netlist.Interior openWires expr := by
  have inside : ∀ point, some point ∈ resolved.points → netlist.interior.nets.Rooted point := rooted
  have slice : netlist.interior.endExpr? resolved = some expr := found
  have typed : expr.HasWidth (netlist.interior.scope .derived openWires) resolved.width :=
    endExpr?_hasWidth inside slice
  exact interior_of_hasWidth typed

-----------------------------------------------------------------------------------------
-- Interior and boundary
-----------------------------------------------------------------------------------------

/-- The expressions are some of the interior next to the given ones of the boundary, in some order.
-/
def Splits (netlist : Netlist) (openWires : List String) (exprs boundary : List Expr) : Prop :=
  ∃ inner, (∀ expr ∈ inner, netlist.Interior openWires expr) ∧ exprs.Perm (inner ++ boundary)

namespace Splits

variable {exprs others boundary rest : List Expr}

theorem inside (interior : ∀ expr ∈ exprs, netlist.Interior openWires expr)
    : netlist.Splits openWires exprs [] :=
  ⟨exprs, interior, by simp⟩

theorem outside : netlist.Splits openWires exprs exprs := ⟨[], by simp, .refl _⟩

theorem mono (splits : netlist.Splits openWires exprs boundary) (within : openWires ⊆ more)
    : netlist.Splits more exprs boundary := by
  obtain ⟨inner, interior, perm⟩ := splits
  exact ⟨inner, fun expr member => (interior expr member).mono within, perm⟩

theorem perm (splits : netlist.Splits openWires exprs boundary) (same : others.Perm exprs)
    : netlist.Splits openWires others boundary := by
  obtain ⟨inner, interior, perm⟩ := splits
  exact ⟨inner, interior, same.trans perm⟩

theorem append (first : netlist.Splits openWires exprs boundary)
    (second : netlist.Splits openWires others rest)
    : netlist.Splits openWires (exprs ++ others) (boundary ++ rest) := by
  obtain ⟨inner, interior, perm⟩ := first
  obtain ⟨later, within, same⟩ := second
  refine ⟨inner ++ later, fun expr member => ?_, (perm.append same).trans ?_⟩
  · exact (List.mem_append.mp member).elim (interior expr) (within expr)
  · simp only [List.append_assoc]
    refine List.Perm.append_left _ ?_
    simp only [← List.append_assoc]
    exact List.perm_append_comm.append_right _

/-- One share of the boundary after the other, by induction on what the shares are for. -/
theorem flatMap {α β : Type} {share : α → List Expr} {exprsOf : β → List Expr} {xs : List α}
    {ys : List β}
    (paired : List.Forall₂ (fun x y => netlist.Splits openWires (exprsOf y) (share x)) xs ys)
    : netlist.Splits openWires (ys.flatMap exprsOf) (xs.flatMap share) := by
  induction paired with
  | nil => exact .outside
  | cons head _ ih => exact head.append ih

theorem interior_or_mem (splits : netlist.Splits openWires exprs boundary) (member : expr ∈ exprs)
    : netlist.Interior openWires expr ∨ expr ∈ boundary := by
  obtain ⟨inner, interior, perm⟩ := splits
  exact (List.mem_append.mp (perm.mem_iff.mp member)).imp (interior expr) id

/-- What is no name of the interior is driven on the boundary only. -/
theorem countP_drives (splits : netlist.Splits openWires exprs boundary) {name : String}
    (apart : name ∉ netlist.interiorNames openWires) (bit : Nat)
    : exprs.countP (fun driver => driver.Drives name bit)
      = boundary.countP (fun driver => driver.Drives name bit) := by
  obtain ⟨inner, interior, perm⟩ := splits
  rw [perm.countP_eq, List.countP_append,
    Expr.countP_drives_eq_zero (fun driver member used => apart (interior driver member name used)),
    Nat.zero_add]

end Splits

/-- Assignments that make sense without a boundary leave the boundary alone. -/
theorem interior_of_assigns {statements : List Statement}
    (each
      : ∀ statement ∈ statements,
          statement.Assigns (netlist.interior.scope mode openWires))
    : ∀ target ∈ statements.flatMap Statement.targets, netlist.Interior openWires target := by
  intro target member
  obtain ⟨statement, listed, assigned⟩ := List.mem_flatMap.mp member
  obtain ⟨left, value, width, rfl, typed, -⟩ := each statement listed
  obtain rfl := List.mem_singleton.mp assigned
  exact interior_of_hasWidth typed

-----------------------------------------------------------------------------------------
-- Bubbles
-----------------------------------------------------------------------------------------

theorem names_bubbleExpr {bus : Direction} {range : BubbleRange} {name : String}
    : (netlist.bubbleExpr bus range).Names name ↔ bubblePort bus = name := by
  unfold bubbleExpr
  split <;> simp

/-- A range drives the indices in it, also where the bus is a single bit. -/
theorem drives_bubbleExpr {bus : Direction} {range : BubbleRange} {index : Nat}
    (ordered : range.first ≤ range.last) (within : range.last < netlist.bubbles.get bus)
    (inside : index < netlist.bubbles.get bus)
    : (netlist.bubbleExpr bus range).Drives (bubblePort bus) index ↔ range.Contains index := by
  unfold bubbleExpr BubbleRange.Contains
  split
  · next single =>
      simp only [Expr.drives_ref, true_iff]
      omega
  · simp

/-- The range that a part has on a bus, as a driver. -/
def bubbleDrivers (netlist : Netlist) (bus : Direction) (part : Part) : List Expr :=
  (part.bubbles.get bus).toList.map (netlist.bubbleExpr bus)

theorem flatMap_bubbleDrivers (parts : List Part) (bus : Direction)
    : parts.flatMap (netlist.bubbleDrivers bus)
      = (rangesOf parts bus).map (netlist.bubbleExpr bus) := by
  rw [rangesOf, List.filterMap_eq_flatMap_toList, List.map_flatMap]
  rfl

theorem names_of_mem_bubbleDrivers {bus : Direction} {part : Part} {name : String}
    (member : expr ∈ netlist.bubbleDrivers bus part) (used : expr.Names name)
    : bubblePort bus = name := by
  obtain ⟨range, -, rfl⟩ := List.mem_map.mp member
  exact names_bubbleExpr.1 used

/-- Ranges that fill a bus drive each of its indices once. -/
theorem countP_drives_bubbles {parts : List Part} {bus : Direction}
    (fill : BubbleRange.Fill (rangesOf parts bus) (netlist.bubbles.get bus)) {index : Nat}
    (inside : index < netlist.bubbles.get bus)
    : (parts.flatMap (netlist.bubbleDrivers bus)).countP
        (fun driver => driver.Drives (bubblePort bus) index)
      = 1 := by
  rw [flatMap_bubbleDrivers, List.countP_map]
  refine Eq.trans (List.countP_congr fun range member => ?_)
    ((fill.countP_contains index).trans (if_pos inside))
  obtain ⟨ordered, within⟩ := fill.bounds member
  simp [drives_bubbleExpr ordered within inside]

end Netlist

end SchematicHdl
