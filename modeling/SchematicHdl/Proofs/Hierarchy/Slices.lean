import SchematicHdl.Proofs.Hierarchy.Sound
import SchematicHdl.Proofs.Netlist.Values

/-! Ends as slices of nets. The points of an end are told to be consecutive bits of one net by
walking along them, and an end of consecutive bits is used through one expression in place of one
expression for each of its bits.
-/

namespace SchematicHdl

open Hdl (Expr Level)
open Net (Point)

-----------------------------------------------------------------------------------------
-- Consecutive bits
-----------------------------------------------------------------------------------------

namespace Net

/-- Points follow on just if each of them is the demanded bit, by induction on the points. -/
theorem followsOn_iff {net bit : Nat} {points : List (Option Point)}
    : followsOn net bit points = true
      ↔ ∀ i < points.length, points[i]? = some (some ⟨net, bit + i⟩) := by
  refine ⟨fun follows i => getElem?_of_followsOn follows, fun each => ?_⟩
  induction points generalizing bit with
  | nil => rfl
  | cons point rest ih =>
      have here : point = some ⟨net, bit⟩ := Option.some.inj (each 0 (Nat.succ_pos _))
      have later : followsOn net (bit + 1) rest = true := by
        refine ih fun i inside => ?_
        rw [Nat.add_right_comm, Nat.add_assoc]
        exact each (i + 1) (Nat.succ_lt_succ inside)
      simp [followsOn, here, later]

/-- The first point of consecutive bits is found, and nothing is found for other points. -/
theorem continuousBase?_eq_some_iff {points : List (Option Point)} {first : Point}
    : continuousBase? points = some first
      ↔ 0 < points.length
        ∧ ∀ i < points.length, points[i]? = some (some ⟨first.net, first.bit + i⟩) := by
  refine ⟨getElem?_of_continuousBase?, fun ⟨several, each⟩ => ?_⟩
  obtain ⟨point, rest, rfl⟩ := List.exists_cons_of_length_pos several
  obtain rfl : point = some first := Option.some.inj (each 0 several)
  have follows : followsOn first.net (first.bit + 1) rest = true := by
    refine followsOn_iff.mpr fun i inside => ?_
    rw [Nat.add_right_comm, Nat.add_assoc]
    exact each (i + 1) (Nat.succ_lt_succ inside)
  rw [continuousBase?, if_pos follows]

end Net

namespace Netlist

variable {netlist : Netlist} {resolved : ResolvedEnd}

/-- An end is used through one expression just if it has bits and all of them are consecutive. -/
theorem endExpr?_isSome_iff
    : (netlist.endExpr? resolved).isSome
      ↔ 0 < resolved.width
        ∧ ∃ net base,
            ∀ i < resolved.width, resolved.points[i]? = some (some ⟨net, base + i⟩) := by
  rw [endExpr?, Option.isSome_map, Option.isSome_iff_exists, ResolvedEnd.slice?]
  simp only [Net.continuousBase?_eq_some_iff]
  constructor
  · rintro ⟨⟨net, base⟩, several, each⟩
    exact ⟨several, net, base, each⟩
  · rintro ⟨several, net, base, each⟩
    exact ⟨⟨net, base⟩, several, each⟩

/-- The expression for an end has one level for each of its bits, which is the only level of the
expression for that bit.
-/
theorem eval_endExpr?_eq_points
    (rooted : ∀ point, some point ∈ resolved.points → netlist.nets.Rooted point) {expr : Expr}
    (found : netlist.endExpr? resolved = some expr) (value : Point → Level)
    : (expr.eval (netlist.valuation value)).map (fun level => [level])
      = resolved.connectedPoints.map (fun point =>
          (netlist.pointExpr point).eval (netlist.valuation value)) := by
  obtain ⟨first, points, evaluates⟩ := eval_endExpr? rooted found
  have connected : resolved.connectedPoints = first.consecutive resolved.width := by
    rw [ResolvedEnd.connectedPoints, points, List.filterMap_map]
    exact List.filterMap_some
  rw [evaluates, connected, List.map_map]
  refine List.map_congr_left fun point member => ?_
  have listed : some point ∈ resolved.points := points ▸ List.mem_map_of_mem member
  rw [eval_pointExpr value (rooted point listed)]
  rfl

end Netlist

-----------------------------------------------------------------------------------------
-- Analyzed circuits
-----------------------------------------------------------------------------------------

namespace Hierarchy

variable {library : Library} {hierarchy : Hierarchy} {netlist : Netlist}

/-- What is connected to an end are bits of root nets. -/
def Lands (netlist : Netlist) (resolved : ResolvedEnd) : Prop :=
  ∀ point, some point ∈ resolved.points → netlist.nets.Rooted point

/-- An expression for an end is found just where the end has bits and is a slice of one net. It is
a signal or a part of one, and it has the levels that the expressions for the single bits have.
-/
structure SlicesExactly (netlist : Netlist) (resolved : ResolvedEnd) : Prop where
  found_iff
    : (netlist.endExpr? resolved).isSome
      ↔ 0 < resolved.width
        ∧ ∃ net base,
            ∀ i < resolved.width, resolved.points[i]? = some (some ⟨net, base + i⟩)
  isSignal : ∀ expr, netlist.endExpr? resolved = some expr → expr.isSignal = true
  eval_eq
    : ∀ expr,
        netlist.endExpr? resolved = some expr
        → ∀ value,
            (expr.eval (netlist.valuation value)).map (fun level => [level])
            = resolved.connectedPoints.map (fun point =>
                (netlist.pointExpr point).eval (netlist.valuation value))

/-- In an analyzed circuit the expressions for whole ends are exact: for the ends of its components,
which land on root nets, and for any other bits of root nets as well.
-/
theorem analyze_slicesExactly [Machine] (built : library.Built) {top : CircuitRef}
    (h : analyze library top = .ok hierarchy) (member : netlist ∈ hierarchy.netlists)
    : (∀ part ∈ netlist.parts, ∀ resolved ∈ part.ends, Lands netlist resolved)
      ∧ ∀ resolved, Lands netlist resolved → SlicesExactly netlist resolved := by
  refine ⟨fun part held resolved listed => ?_, fun resolved lands => ⟨?_, ?_, ?_⟩⟩
  · obtain ⟨holds, -⟩ := (sound_of_analyze built.wellFormed h).part member held
    obtain ⟨shape, -, attached⟩ := Outcome.forall₂_mem_right holds.ends listed
    exact attached.rooted
  · exact Netlist.endExpr?_isSome_iff
  · intro expr found
    obtain ⟨-, -, signal, -⟩ := Netlist.places_endExpr? lands found
    exact signal
  · exact fun expr found => Netlist.eval_endExpr?_eq_points lands found

/-- A component with ends that are a whole net, an inner slice of it, its last bit, a net of one
bit, bits in the wrong order, bits with a gap, and nothing.
-/
def slicedSteps : List BuildStep :=
  [
    .circuit "m",
    .wire 0 4,
    .wire 0 1,
    .unknown 0 "X"
      [⟨.input, 4⟩, ⟨.input, 2⟩, ⟨.input, 1⟩, ⟨.input, 1⟩, ⟨.input, 2⟩, ⟨.input, 2⟩, ⟨.input, 0⟩]
      .empty,
    .connect 0 0 0 ⟨0, 0⟩,
    .connectBits 0 0 1 [some (⟨0, 0⟩, 1), some (⟨0, 0⟩, 2)],
    .connectBits 0 0 2 [some (⟨0, 0⟩, 3)],
    .connect 0 0 3 ⟨0, 1⟩,
    .connectBits 0 0 4 [some (⟨0, 0⟩, 2), some (⟨0, 0⟩, 1)],
    .connectBits 0 0 5 [some (⟨0, 0⟩, 0), none]
  ]

/-- The first four ends are slices of nets, and so they have an expression. -/
theorem slicedEnds_slicesExactly
    : ∃ library hierarchy netlist part,
        library.Built
        ∧ analyze library ⟨0, 0, "m"⟩ = .ok hierarchy
        ∧ netlist ∈ hierarchy.netlists
        ∧ part ∈ netlist.parts
        ∧ part.ends.map (fun resolved => (netlist.endExpr? resolved).isSome)
          = [true, true, true, true, false, false, false]
        ∧ ∀ resolved ∈ part.ends, SlicesExactly netlist resolved := by
  have evaluated
      : (analyzeBuilt? slicedSteps ⟨0, 0, "m"⟩).map (fun result =>
            result.2.netlists.any (fun netlist =>
              netlist.parts.any (fun part =>
                part.ends.map (fun resolved => (netlist.endExpr? resolved).isSome)
                  == [true, true, true, true, false, false, false])))
        = some true := by
    decide +kernel
  obtain ⟨⟨library, hierarchy⟩, found, facts⟩ := Option.map_eq_some_iff.mp evaluated
  obtain ⟨built, analyzed⟩ := built_of_analyzeBuilt? found
  simp only [List.any_eq_true, beq_iff_eq] at facts
  obtain ⟨netlist, member, part, held, slices⟩ := facts
  obtain ⟨lands, exact⟩ := analyze_slicesExactly built analyzed member
  exact
    ⟨library, hierarchy, netlist, part, built, analyzed, member, held, slices,
      fun resolved listed => exact resolved (lands part held resolved listed)⟩

/-- A component with an end that has no bits, beside a net. -/
def emptyEndSteps : List BuildStep :=
  [.circuit "m", .wire 0 1, .unknown 0 "X" [⟨.output, 0⟩] .empty]

/-- All bits of an empty end are bits of a net, as there are none, but it has no expression. -/
theorem emptyEnd_noExpr
    : ∃ library hierarchy netlist part resolved,
        library.Built
        ∧ analyze library ⟨0, 0, "m"⟩ = .ok hierarchy
        ∧ netlist ∈ hierarchy.netlists
        ∧ part ∈ netlist.parts
        ∧ resolved ∈ part.ends
        ∧ 0 ∈ netlist.nets.rootNets
        ∧ (∀ i < resolved.width, resolved.points[i]? = some (some ⟨0, 0 + i⟩))
        ∧ netlist.endExpr? resolved = none := by
  have evaluated
      : (analyzeBuilt? emptyEndSteps ⟨0, 0, "m"⟩).map (fun result =>
            result.2.netlists.any (fun netlist =>
              netlist.nets.rootNets.contains 0
              && netlist.parts.any (fun part => part.ends == [⟨.output, []⟩])))
        = some true := by
    decide +kernel
  obtain ⟨⟨library, hierarchy⟩, found, facts⟩ := Option.map_eq_some_iff.mp evaluated
  obtain ⟨built, analyzed⟩ := built_of_analyzeBuilt? found
  simp only [List.any_eq_true, Bool.and_eq_true, List.contains_iff_mem, beq_iff_eq] at facts
  obtain ⟨netlist, member, root, part, held, ends⟩ := facts
  have listed : ⟨.output, []⟩ ∈ part.ends := ends ▸ List.mem_cons_self
  exact
    ⟨library, hierarchy, netlist, part, ⟨.output, []⟩, built, analyzed, member, held, listed, root,
      fun _ inside => absurd inside (Nat.not_lt_zero _), rfl⟩

end Hierarchy

end SchematicHdl
