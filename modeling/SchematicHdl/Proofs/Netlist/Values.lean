import SchematicHdl.Proofs.Hdl.Meaning
import SchematicHdl.Proofs.Netlist.Expressions
import SchematicHdl.Proofs.Text

/-! Values of the points of a circuit. A root net is known by its name, so values of all points are
levels of the declared wires, and the expressions for points, slices and whole ends have the values
of the points that they stand for, in their order.
-/

namespace SchematicHdl

open Hdl (BitPlace Expr Level Valuation)
open Net (Point Table)

-----------------------------------------------------------------------------------------
-- Names of nets
-----------------------------------------------------------------------------------------

namespace Net

/-- The name of a net tells its number. -/
theorem net_of_signalName {a b width other : Nat}
    (same : signalName a width = signalName b other)
    : a = b := by
  have texts := congrArg String.toList same
  unfold signalName at texts
  split at texts <;> split at texts <;> simp [toString] at texts
  all_goals exact (Text.digits_suffix_inj (.nil _) (.nil _) (congrArg (· ++ []) texts)).1

/-- Consecutive bits of a net, from the given point on. -/
def Point.consecutive (first : Point) (width : Nat) : List Point :=
  (List.range width).map (fun i => ⟨first.net, first.bit + i⟩)

end Net

namespace Netlist

/-- The place of a point among the declared wires. -/
def place (netlist : Netlist) (point : Point) : BitPlace :=
  ⟨netlist.nets.nameAt point.net, point.bit⟩

/-- The root net of a name. -/
def netNamed? (netlist : Netlist) (name : String) : Option Nat :=
  netlist.nets.rootNets.find? (fun net => netlist.nets.nameAt net = name)

/-- The declared width of a name. Other names than those of root nets are single bits. -/
def widthOf (netlist : Netlist) (name : String) : Nat :=
  ((netlist.netNamed? name).map netlist.nets.widthAt).getD 1

/-- The valuation that gives its value to each point of a root net. -/
def valuation (netlist : Netlist) (value : Point → Level) : Valuation where
  generics := []
  width := netlist.widthOf
  level := fun place =>
    ((netlist.netNamed? place.name).map (fun net => value ⟨net, place.bit⟩)).getD .unknown

variable {netlist : Netlist}

theorem netNamed?_nameAt {net : Nat} (root : net ∈ netlist.nets.rootNets)
    : netlist.netNamed? (netlist.nets.nameAt net) = some net := by
  unfold netNamed?
  cases found
      : netlist.nets.rootNets.find? (fun other =>
          netlist.nets.nameAt other = netlist.nets.nameAt net) with
  | none => simpa using List.find?_eq_none.mp found net root
  | some other =>
      have same : netlist.nets.nameAt other = netlist.nets.nameAt net := by
        simpa using List.find?_some found
      rw [Net.net_of_signalName same]

theorem widthOf_nameAt {net : Nat} (root : net ∈ netlist.nets.rootNets)
    : netlist.widthOf (netlist.nets.nameAt net) = netlist.nets.widthAt net := by
  rw [widthOf, netNamed?_nameAt root]
  rfl

theorem level_place (value : Point → Level) {point : Point} (rooted : netlist.nets.Rooted point)
    : (netlist.valuation value).level (netlist.place point) = value point := by
  simp only [valuation, place, netNamed?_nameAt (widthAt_of_rooted rooted).1]
  rfl

-----------------------------------------------------------------------------------------
-- Points and slices
-----------------------------------------------------------------------------------------

/-- A signal that stands for points has their values. -/
theorem eval_of_places (value : Point → Level) {expr : Expr} {points : List Point}
    (signal : expr.isSignal = true)
    (stands : expr.places netlist.widthOf = points.map netlist.place)
    (rooted : ∀ point ∈ points, netlist.nets.Rooted point)
    : expr.eval (netlist.valuation value) = points.map value := by
  have same : (netlist.valuation value).width = netlist.widthOf := rfl
  rw [Expr.eval_of_isSignal signal, same, stands, List.map_map]
  exact List.map_congr_left fun point member => level_place value (rooted point member)

theorem isSignal_pointExpr (netlist : Netlist) (point : Point)
    : (netlist.pointExpr point).isSignal = true := by
  simp only [pointExpr]
  split <;> rfl

/-- The expression for a point stands for its one place. -/
theorem places_pointExpr {point : Point} (rooted : netlist.nets.Rooted point)
    : (netlist.pointExpr point).places netlist.widthOf = [netlist.place point] := by
  obtain ⟨root, lower⟩ := widthAt_of_rooted rooted
  simp only [pointExpr]
  split
  · next single =>
      have first : point.bit = 0 := by omega
      simp [Expr.places, widthOf_nameAt root, single, place, first]
  · rfl

@[simp] theorem eval_pointExpr (value : Point → Level) {point : Point}
    (rooted : netlist.nets.Rooted point)
    : (netlist.pointExpr point).eval (netlist.valuation value) = [value point] := by
  have stands
      : (netlist.pointExpr point).places netlist.widthOf = [point].map netlist.place :=
    places_pointExpr rooted
  exact
    eval_of_places value (isSignal_pointExpr netlist point) stands
      (List.forall_mem_singleton.mpr rooted)

theorem isSignal_sliceExpr (netlist : Netlist) (first : Point) (width : Nat)
    : (netlist.sliceExpr first width).isSignal = true := by
  simp only [sliceExpr]
  split
  · rfl
  · exact Expr.isSignal_range _ _ _

/-- The expression for consecutive bits stands for them, in their order. -/
theorem places_sliceExpr {first : Point} {width : Nat}
    (rooted : netlist.nets.RootedRange first width)
    : (netlist.sliceExpr first width).places netlist.widthOf
      = (first.consecutive width).map netlist.place := by
  obtain ⟨some, each⟩ := rooted
  have root := (widthAt_of_rooted (each 0 some)).1
  simp only [sliceExpr]
  split
  · next whole =>
      obtain ⟨start, all⟩ := Bool.and_eq_true_iff.mp whole
      simp [Expr.places, widthOf_nameAt root, ← of_decide_eq_true all, of_decide_eq_true start,
        Point.consecutive, place]
  · have count : first.bit + width - 1 - first.bit + 1 = width := by omega
    rw [Expr.places_range, count, Point.consecutive, List.map_map]
    rfl

-----------------------------------------------------------------------------------------
-- Whole ends
-----------------------------------------------------------------------------------------

/-- The expression for a whole end stands for the points of the end, which are consecutive bits. -/
theorem places_endExpr? {resolved : ResolvedEnd}
    (rooted : ∀ point, some point ∈ resolved.points → netlist.nets.Rooted point) {expr : Expr}
    (found : netlist.endExpr? resolved = some expr)
    : ∃ first : Point,
        resolved.points = (first.consecutive resolved.width).map some
        ∧ expr.isSignal = true
        ∧ expr.places netlist.widthOf = (first.consecutive resolved.width).map netlist.place := by
  obtain ⟨first, based, rfl⟩ := Option.map_eq_some_iff.mp found
  obtain ⟨several, each⟩ := Net.getElem?_of_continuousBase? based
  have points : resolved.points = (first.consecutive resolved.width).map some := by
    refine List.ext_getElem? fun i => ?_
    by_cases inside : i < resolved.points.length
    · rw [each i inside]
      simp [Point.consecutive, ResolvedEnd.width, inside]
    · simp [Point.consecutive, ResolvedEnd.width, inside]
  refine ⟨first, points, isSignal_sliceExpr netlist first resolved.width, ?_⟩
  exact places_sliceExpr
    ⟨several, fun i inside => rooted _ (List.mem_of_getElem? (each i inside))⟩

/-- The expression for a whole end has the values of its points. -/
theorem eval_endExpr? {resolved : ResolvedEnd}
    (rooted : ∀ point, some point ∈ resolved.points → netlist.nets.Rooted point) {expr : Expr}
    (found : netlist.endExpr? resolved = some expr)
    : ∃ first : Point,
        resolved.points = (first.consecutive resolved.width).map some
        ∧ ∀ value,
            expr.eval (netlist.valuation value)
            = (first.consecutive resolved.width).map value := by
  obtain ⟨first, points, signal, stands⟩ := places_endExpr? rooted found
  refine ⟨first, points, fun value => eval_of_places value signal stands fun point member => ?_⟩
  exact rooted point (points ▸ List.mem_map_of_mem member)

end Netlist

end SchematicHdl
