import SchematicHdl.Proofs.Hierarchy.Inheritance

/-! The order in which clock trees come down. Trees that come down to different points can be
recorded in any order, so the hash order of a run has no effect on circuits whose input pins share
no point: they come to what the order of the pins would come to.
-/

namespace SchematicHdl

open Outcome

/-- No two input pins are connected to one point. -/
def Netlist.InputsApart (netlist : Netlist) : Prop :=
  ∀ first ∈ netlist.pins,
    ∀ second ∈ netlist.pins,
      first.category = .pin .input
      → second.category = .pin .input
      → first.position ≠ second.position
      → ∀ point ∈ netlist.pointsAt first.position, point ∉ netlist.pointsAt second.position

instance (netlist : Netlist) : Decidable netlist.InputsApart :=
  inferInstanceAs
    (Decidable
      (∀ first ∈ netlist.pins,
        ∀ second ∈ netlist.pins,
          first.category = .pin .input
          → second.category = .pin .input
          → first.position ≠ second.position
          → ∀ point ∈ netlist.pointsAt first.position, point ∉ netlist.pointsAt second.position))

theorem SameBody.inputsApart_iff {before after : Netlist} (same : SameBody before after)
    : after.InputsApart ↔ before.InputsApart := by
  have points (position : Nat) : after.pointsAt position = before.pointsAt position := by
    rw [Netlist.pointsAt, Netlist.part?, same.parts_eq]
    rfl
  simp only [Netlist.InputsApart, same.pins_eq, points]

/-- Two numbers can be put into a list in any order, by induction on the list. -/
theorem Netlist.insertAscending_comm (n m : Nat) (numbers : List Nat)
    : insertAscending n (insertAscending m numbers)
      = insertAscending m (insertAscending n numbers) := by
  induction numbers with
  | nil =>
      rcases Nat.lt_trichotomy n m with less | rfl | more
      · simp [insertAscending, less, Nat.lt_asymm less, Nat.ne_of_gt less]
      · rfl
      · simp [insertAscending, more, Nat.lt_asymm more, Nat.ne_of_gt more]
  | cons head rest ih =>
      simp only [insertAscending]
      split <;> split <;> grind [insertAscending]

namespace Hierarchy

-----------------------------------------------------------------------------------------
-- Recording trees in another order
-----------------------------------------------------------------------------------------

/-- Records all clocks that come down, in their order. -/
def inheritAll (netlist : Netlist) (clocks : List (Nat × Nat)) : Netlist :=
  clocks.foldl (fun netlist clock => inherit netlist clock.1 clock.2) netlist

/-- Trees that come down to different points can be recorded in any order. -/
theorem inherit_comm {netlist : Netlist} {first second : Nat × Nat} (differ : first.1 ≠ second.1)
    (apart : ∀ point ∈ netlist.pointsAt first.1, point ∉ netlist.pointsAt second.1)
    : inherit (inherit netlist first.1 first.2) second.1 second.2
      = inherit (inherit netlist second.1 second.2) first.1 first.2 := by
  have points
      : (inherit (inherit netlist first.1 first.2) second.1 second.2).clockPoints
        = (inherit (inherit netlist second.1 second.2) first.1 first.2).clockPoints := by
    funext point
    show (if point ∈ netlist.pointsAt second.1 then _ else
        if point ∈ netlist.pointsAt first.1 then _ else netlist.clockPoints point)
      = if point ∈ netlist.pointsAt first.1 then _ else
        if point ∈ netlist.pointsAt second.1 then _ else netlist.clockPoints point
    by_cases here : point ∈ netlist.pointsAt first.1
    · simp only [if_pos here, if_neg (apart point here)]
    · simp only [if_neg here]
  have pins
      : (inherit (inherit netlist first.1 first.2) second.1 second.2).pinClocks
        = (inherit (inherit netlist second.1 second.2) first.1 first.2).pinClocks := by
    funext pin
    show (if pin = second.1 then _ else if pin = first.1 then _ else netlist.pinClocks pin)
      = if pin = first.1 then _ else if pin = second.1 then _ else netlist.pinClocks pin
    by_cases here : pin = first.1
    · simp only [if_pos here, if_neg (here ▸ differ)]
    · simp only [if_neg here]
  have trees
      : (inherit (inherit netlist first.1 first.2) second.1 second.2).clockTrees
        = (inherit (inherit netlist second.1 second.2) first.1 first.2).clockTrees :=
    Netlist.insertAscending_comm _ _ _
  simpa only [inherit, Netlist.mk.injEq, true_and] using ⟨trees, points, pins⟩

/-- Clocks for different pins with different points are recorded alike in any order, by induction on
the permutation. Recording a clock leaves the points of all pins as they are.
-/
theorem inheritAll_perm {clocks others : List (Nat × Nat)} (perm : clocks.Perm others)
    (netlist : Netlist)
    (apart
      : ∀ first ∈ clocks,
          ∀ second ∈ clocks,
            first ≠ second
            → first.1 ≠ second.1
              ∧ ∀ point ∈ netlist.pointsAt first.1, point ∉ netlist.pointsAt second.1)
    : inheritAll netlist clocks = inheritAll netlist others := by
  induction perm generalizing netlist with
  | nil => rfl
  | cons clock perm ih =>
      exact ih (inherit netlist clock.1 clock.2) fun first inside second beside =>
        apart first (.tail _ inside) second (.tail _ beside)
  | swap first second rest =>
      by_cases same : second = first
      · rw [same]
      · obtain ⟨differ, disjoint⟩ := apart second (.head _) first (.tail _ (.head _)) same
        exact congrArg (inheritAll · rest) (inherit_comm differ disjoint)
  | trans perm perm' ih ih' =>
      rw [ih netlist apart]
      exact ih' netlist fun first inside second beside =>
        apart first (perm.mem_iff.mpr inside) second (perm.mem_iff.mpr beside)

-----------------------------------------------------------------------------------------
-- Sinking clocks in pin order
-----------------------------------------------------------------------------------------

/-- Hands the clock trees of the parents to the input pins of a circuit, pin by pin. -/
def settleByPins (parents : List Netlist) (netlist : Netlist) : Netlist :=
  inheritAll netlist (netlist.pins.filterMap (inherited? parents netlist))

/-- Hands clock trees down, parents first and pin by pin. -/
def sinkByPins : List Netlist → List Netlist
  | [] => []
  | netlist :: rest => settleByPins (sinkByPins rest) netlist :: sinkByPins rest

/-- The hash order has no effect on a circuit whose input pins share no point. -/
theorem settle_of_inputsApart [Machine] {netlist : Netlist} (apart : netlist.InputsApart)
    (parents : List Netlist)
    : settle parents netlist = settleByPins parents netlist := by
  refine inheritAll_perm (Machine.arrange_perm _ _) netlist ?_
  intro first inside second beside distinct
  obtain ⟨a, inA, fromA⟩ := List.mem_filterMap.mp (Machine.mem_arrange.mp inside)
  obtain ⟨b, inB, fromB⟩ := List.mem_filterMap.mp (Machine.mem_arrange.mp beside)
  obtain ⟨here, input⟩ := input_of_inherited? fromA
  obtain ⟨there, beside⟩ := input_of_inherited? fromB
  have differ : a.position ≠ b.position := by
    intro same
    simp only [inherited?, Option.ite_none_right_eq_some, ← same] at fromA fromB
    exact distinct (Option.some.inj (fromA.2.symm.trans fromB.2))
  rw [here, there]
  exact ⟨differ, apart a inA b inB input beside differ⟩

theorem sinkClocks_of_inputsApart [Machine] {netlists : List Netlist}
    (apart : ∀ netlist ∈ netlists, netlist.InputsApart)
    : sinkClocks netlists = sinkByPins netlists := by
  induction netlists with
  | nil => rfl
  | cons netlist rest ih =>
      obtain ⟨here, others⟩ := List.forall_mem_cons.mp apart
      rw [sinkClocks, ih others, settle_of_inputsApart here, sinkByPins]

/-- What a visit to everything below a circuit comes to. -/
abbrev visited [Arithmetic] (library : Library) (top : CircuitRef)
    : Except GenerationError (Unit × Hierarchy) :=
  (visit library (List.range library.circuits.length) [] top).run ⟨[], .empty, []⟩

/-- Clock trees sink when everything below the top is visited. -/
theorem analyze_eq [Machine] (library : Library) (top : CircuitRef)
    : analyze library top
      = (fun last => { last.2 with netlists := sinkClocks last.2.netlists })
        <$> visited library top := by
  unfold analyze visited
  dsimp only
  cases (visit library (List.range library.circuits.length) [] top).run ⟨[], .empty, []⟩ <;> rfl

/-- Analyzes a circuit and every circuit below it, with clock trees that sink pin by pin. -/
def analyzeByPins [Arithmetic] (library : Library) (top : CircuitRef)
    : Except GenerationError Hierarchy :=
  (fun last => { last.2 with netlists := sinkByPins last.2.netlists }) <$> visited library top

variable {library : Library} {top : CircuitRef}

/-- Sinking clock trees does not move pins. -/
theorem inputsApart_of_visited [Machine]
    (apart
      : ∀ hierarchy,
          analyze library top = .ok hierarchy
          → ∀ netlist ∈ hierarchy.netlists, netlist.InputsApart)
    {last : Unit × Hierarchy} (done : visited library top = .ok last)
    : ∀ netlist ∈ last.2.netlists, netlist.InputsApart := by
  intro netlist member
  obtain ⟨settled, beside, same⟩ :=
    forall₂_mem_right (sinkClocks_sameBody last.2.netlists).flip member
  refine same.inputsApart_iff.mp (apart { last.2 with netlists := sinkClocks _ } ?_ settled beside)
  rw [analyze_eq, done]
  rfl

theorem analyze_eq_byPins [Machine]
    (apart
      : ∀ last, visited library top = .ok last → ∀ netlist ∈ last.2.netlists, netlist.InputsApart)
    : analyze library top = analyzeByPins library top := by
  rw [analyze_eq, analyzeByPins]
  cases done : visited library top with
  | error cause => rfl
  | ok last => simp only [Functor.map, Except.map, sinkClocks_of_inputsApart (apart last done)]

/-- When input pins share no points in what one run makes of a design, each run of the build makes
of it what sinking pin by pin comes to.
-/
theorem analyze_of_inputsApart {first second : Machine}
    (same : first.toArithmetic = second.toArithmetic)
    (apart
      : ∀ hierarchy,
          @analyze first library top = .ok hierarchy
          → ∀ netlist ∈ hierarchy.netlists, netlist.InputsApart)
    : @analyze second library top = @analyzeByPins first.toArithmetic library top := by
  have raw := @inputsApart_of_visited _ _ first apart
  rw [same] at raw ⊢
  exact @analyze_eq_byPins _ _ second fun _ => raw

/-- Two runs of one build analyze a design alike when its input pins share no points. -/
theorem analyze_arranged {first second : Machine} (same : first.toArithmetic = second.toArithmetic)
    (apart
      : ∀ hierarchy,
          @analyze first library top = .ok hierarchy
          → ∀ netlist ∈ hierarchy.netlists, netlist.InputsApart)
    : @analyze second library top = @analyze first library top := by
  rw [analyze_of_inputsApart same apart, analyze_of_inputsApart rfl apart]

end Hierarchy

end SchematicHdl
