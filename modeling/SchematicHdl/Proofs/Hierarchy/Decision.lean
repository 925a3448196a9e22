import SchematicHdl.Proofs.Hierarchy.Bubbles
import SchematicHdl.Proofs.Netlist.Faults

/-! When a design can be analyzed. The visit from the top circuit fails just when a circuit below
the top instantiates itself, or is inconsistent, or has more than words count in a build that checks
overflow. A recursion is only reported with the instances that lead from a circuit back to it.
-/

namespace SchematicHdl

open Netlist (countOf ofCircuit? positions)
open Outcome
open Relation (ReflTransGen TransGen)

/-- A circuit of a library instantiates another one. -/
def Library.Instantiates (library : Library) (circuit child : Nat) : Prop :=
  child ∈ library.below circuit

theorem Library.instantiates_of_kind {library : Library} {circuit : Nat} {component : Component}
    {child : CircuitRef} (placed : component ∈ (library.circuitAt circuit).components)
    (kind : component.kind = .subcircuit child)
    : library.Instantiates circuit child.position :=
  List.mem_filterMap.mpr ⟨component, placed, Component.target?_eq_some.2 ⟨child, kind, rfl⟩⟩

/-- What a design has is counted in words: the data ends of its components, and the bubbles on each
bus, where a circuit counts its own unconnected pins and the bubbles of the circuits that it
instantiates.
-/
structure Library.Countable (library : Library) (top : Nat) : Prop where
  laidOut
    : ∀ circuit,
        ReflTransGen library.Instantiates top circuit
        → ∀ component ∈ (library.circuitAt circuit).components, component.CountsEnds
  bubbles
    : ∀ bus,
        ∃ count : Nat → Nat,
          ∀ circuit,
            ReflTransGen library.Instantiates top circuit
            → count circuit = (library.circuitAt circuit).bubbleDemand bus count
              ∧ count circuit < Word.size

namespace Hierarchy

variable {library : Library}

-----------------------------------------------------------------------------------------
-- Paths of instances
-----------------------------------------------------------------------------------------

/-- Steps from a circuit down to another one, each to an instance in the circuit reached so far. -/
inductive Descends (library : Library) : Nat → List Step → Nat → Prop
  | here {circuit} : Descends library circuit [] circuit
  | down {circuit component child steps target}
    (placed : component ∈ (library.circuitAt circuit).components)
    (kind : component.kind = .subcircuit child)
    (rest : Descends library child.position steps target)
    : Descends library circuit
        (Step.ofInstance (library.circuitAt circuit) component :: steps) target

namespace Descends

variable {start target : Nat} {steps : List Step}

theorem snoc (descends : Descends library start steps target) {component : Component}
    {child : CircuitRef} (placed : component ∈ (library.circuitAt target).components)
    (kind : component.kind = .subcircuit child)
    : Descends library start
        (steps ++ [Step.ofInstance (library.circuitAt target) component]) child.position := by
  induction descends with
  | here => exact .down placed kind .here
  | down first firstKind _ ih => exact .down first firstKind (ih placed)

theorem reaches (descends : Descends library start steps target)
    : ReflTransGen library.Instantiates start target := by
  induction descends with
  | here => exact .refl
  | down placed kind _ ih => exact .head (Library.instantiates_of_kind placed kind) ih

/-- A path with steps leads below its start. -/
theorem lies_below (descends : Descends library start steps target) (some : steps ≠ [])
    : TransGen library.Instantiates start target := by
  cases descends with
  | here => exact absurd rfl some
  | down placed kind rest =>
      exact .head' (Library.instantiates_of_kind placed kind) rest.reaches

/-- The steps from a circuit on lead down from it, by induction on the path. -/
theorem dropWhile (wellFormed : library.WellFormed) {circuit : Nat}
    (descends : Descends library start steps target) (passed : circuit ∈ steps.map Step.circuit)
    : ReflTransGen library.Instantiates start circuit
      ∧ Descends library circuit (steps.dropWhile (fun step => step.circuit ≠ circuit)) target
      ∧ steps.dropWhile (fun step => step.circuit ≠ circuit) ≠ [] := by
  induction descends with
  | here => cases passed
  | @down first component child steps _ placed kind rest ih =>
      have owner : (Step.ofInstance (library.circuitAt first) component).circuit = first :=
        wellFormed.circuitAt_position first
      by_cases same : first = circuit
      · subst same
        rw [List.dropWhile_cons_of_neg (by simp [owner])]
        exact ⟨.refl, .down placed kind rest, List.cons_ne_nil _ _⟩
      · rw [List.dropWhile_cons_of_pos (by simp [owner, same])]
        have later : circuit ∈ steps.map Step.circuit := by
          rcases List.mem_cons.mp passed with head | later
          · exact absurd (head.trans owner).symm same
          · exact later
        obtain ⟨reached, below, some⟩ := ih later
        exact ⟨.head (Library.instantiates_of_kind placed kind) reached, below, some⟩

end Descends

-----------------------------------------------------------------------------------------
-- Why a visit fails
-----------------------------------------------------------------------------------------

/-- The causes for which a design is refused: a circuit below the top that instantiates itself,
reported with steps around such a cycle, none of them from the same circuit as another; a conflict
in a circuit below the top; or more than words count, if that is checked.
-/
inductive Refused [Arithmetic] (library : Library) (top : Nat) : GenerationError → Prop
  | recursive {circuit steps} (reached : ReflTransGen library.Instantiates top circuit)
    (cycle : Descends library circuit steps circuit) (some : steps ≠ [])
    (once : (steps.map Step.circuit).Nodup)
    : Refused library top
        (.recursiveCircuit (library.circuitAt circuit).name (steps.map Step.text))
  | inconsistent {circuit error} (reached : ReflTransGen library.Instantiates top circuit)
    (conflict : (library.circuitAt circuit).Conflict library error)
    : Refused library top error
  | overflow {operation} (checks : Arithmetic.checksOverflow = true)
    (uncountable : ¬ library.Countable top)
    : Refused library top (.overflow operation)

/-- A design is refused for something in it. -/
theorem Refused.blamesDesign [Arithmetic] {top : Nat} {error : GenerationError}
    (refused : Refused library top error)
    : error.BlamesDesign := by
  cases refused with
  | recursive | overflow => exact nofun
  | inconsistent _ conflict => exact conflict.blamesDesign

/-- The library is closed under what it refers to. -/
structure Grounded (library : Library) : Prop where
  wellFormed : library.WellFormed
  wired : ∀ circuit ∈ library.circuits, circuit.Wired
  refers : library.Refers

theorem grounded_of_built [Arithmetic] (built : library.BuiltWithin) : Grounded library :=
  ⟨built.built.wellFormed, built.built.wired, built.refers⟩

theorem Grounded.wired_circuitAt (grounded : Grounded library) (position : Nat)
    : (library.circuitAt position).Wired := by
  unfold Library.circuitAt Library.circuit?
  cases found : library.circuits[position]? with
  | none => constructor <;> simp [Circuit.empty]
  | some circuit => exact grounded.wired circuit (List.mem_of_getElem? found)

/-- The circuits on the path from the top and those that wait for their visit: every circuit is one
or the other, and no circuit is on the path twice.
-/
structure OnPath (library : Library) (top : Nat) (waiting : List Nat) (path : List Step)
    (target : Nat)
    : Prop where
  inside : ∀ position ∈ waiting, position < library.circuits.length
  distinct : waiting.Nodup
  complete
    : ∀ position < library.circuits.length,
        position ∈ waiting ∨ position ∈ path.map Step.circuit
  apart : ∀ position ∈ path.map Step.circuit, position ∉ waiting
  once : (path.map Step.circuit).Nodup
  descends : Descends library top path target

theorem OnPath.start (top : Nat)
    : OnPath library top (List.range library.circuits.length) [] top where
  inside := fun _ member => List.mem_range.mp member
  distinct := List.nodup_range
  complete := fun _ inside => .inl (List.mem_range.mpr inside)
  apart := nofun
  once := List.nodup_nil
  descends := .here

/-- A circuit that is entered goes from the waiting ones to the path. -/
theorem OnPath.enter (wellFormed : library.WellFormed) {top target : Nat} {waiting : List Nat}
    {path : List Step} (onPath : OnPath library top waiting path target)
    (listed : target ∈ waiting) {component : Component} {child : CircuitRef}
    (placed : component ∈ (library.circuitAt target).components)
    (kind : component.kind = .subcircuit child)
    : OnPath library top (waiting.erase target)
        (path ++ [Step.ofInstance (library.circuitAt target) component]) child.position := by
  have circuits
      : (path ++ [Step.ofInstance (library.circuitAt target) component]).map Step.circuit
        = path.map Step.circuit ++ [target] := by
    rw [List.map_append]
    exact congrArg (fun last => _ ++ [last]) (wellFormed.circuitAt_position target)
  constructor
  · intro position member
    exact onPath.inside position (List.mem_of_mem_erase member)
  · exact onPath.distinct.erase _
  · intro position inside
    rw [circuits]
    by_cases same : position = target
    · exact .inr (by simp [same])
    · rcases onPath.complete position inside with waits | passed
      · exact .inl ((List.mem_erase_of_ne same).mpr waits)
      · exact .inr (List.mem_append_left _ passed)
  · intro position passed
    rw [circuits] at passed
    rcases List.mem_append.mp passed with earlier | last
    · exact fun waits => onPath.apart position earlier (List.mem_of_mem_erase waits)
    · rw [List.mem_singleton.mp last]
      exact onPath.distinct.not_mem_erase
  · rw [circuits]
    refine onPath.once.append (List.nodup_singleton _) ?_
    intro position passed last
    rw [List.mem_singleton.mp last] at passed
    exact onPath.apart target passed listed
  · exact onPath.descends.snoc placed kind

/-- A circuit that is known but does not wait is on the path, so the steps from it on are a cycle.
-/
theorem OnPath.refused [Arithmetic] (wellFormed : library.WellFormed) {top : Nat}
    {waiting : List Nat} {path : List Step} {target : CircuitRef}
    (onPath : OnPath library top waiting path target.position) (known : library.Knows target)
    (absent : target.position ∉ waiting)
    : Refused library top (.recursiveCircuit target.name (stepsFrom path target.position)) := by
  have passed := (onPath.complete _ known.inside).resolve_left absent
  obtain ⟨reached, cycle, some⟩ := onPath.descends.dropWhile wellFormed passed
  rw [← known.name_eq]
  refine .recursive reached cycle some ?_
  exact onPath.once.sublist ((List.dropWhile_sublist _).map _)

/-- A circuit asks for what it counts if the circuits that it instantiates count what they ask for.
-/
theorem bubbleDemand_eq_count {netlists : List Netlist} {top target : Nat} {bus : Direction}
    {count : Nat → Nat} (counted : ∀ circuit,
      ReflTransGen library.Instantiates top circuit
      → count circuit = (library.circuitAt circuit).bubbleDemand bus count)
    (known
      : ∀ netlist ∈ netlists,
          ReflTransGen library.Instantiates top netlist.circuit.position
          → netlist.bubbles.get bus = count netlist.circuit.position)
    (reached : ReflTransGen library.Instantiates top target)
    (below
      : ∀ component ∈ (library.circuitAt target).components,
          ∀ child,
            component.kind = .subcircuit child → (ofCircuit? netlists child.position).isSome)
    : (library.circuitAt target).bubbleDemand bus (countOf netlists bus) = count target := by
  rw [counted target reached]
  refine Circuit.bubbleDemand_congr (fun component placed child kind => ?_) bus
  obtain ⟨netlist, found⟩ := Option.isSome_iff_exists.mp (below component placed child kind)
  obtain ⟨member, same⟩ := Netlist.ofCircuit?_mem found
  rw [countOf, found, Option.elim_some, ← same]
  exact known netlist member (same ▸ reached.tail (Library.instantiates_of_kind placed kind))

/-- Where overflow is checked, the circuits analyzed so far count what they ask for, by induction on
the order of the analysis.
-/
theorem Assembled.bubbles_eq [Arithmetic] (grounded : Grounded library) {netlists : List Netlist}
    {registry : ClockRegistry} (assembled : Assembled library netlists registry)
    (checks : Arithmetic.checksOverflow = true) {top : Nat} {bus : Direction} {count : Nat → Nat}
    (counted
      : ∀ circuit,
          ReflTransGen library.Instantiates top circuit
          → count circuit = (library.circuitAt circuit).bubbleDemand bus count)
    : ∀ netlist ∈ netlists,
        ReflTransGen library.Instantiates top netlist.circuit.position
        → netlist.bubbles.get bus = count netlist.circuit.position := by
  induction assembled with
  | nil => simp
  | @snoc earlier registry position analyzed _ inside fresh done ih =>
      intro netlist member reached
      rcases List.mem_append.mp member with before | last
      · exact ih netlist before reached
      obtain rfl := List.mem_singleton.mp last
      obtain ⟨stages⟩ := Netlist.analyze_stages done
      have here : analyzed.netlist.circuit.position = position := by
        rw [stages.circuit_eq]
        exact grounded.wellFormed.circuitAt_position _
      rw [here] at reached ⊢
      obtain ⟨count_eq, exact⟩ := stages.bubbles_eq bus
      rw [count_eq, Nat.mod_eq_of_lt (exact checks),
        stages.bubbleDemand_eq (grounded.wired_circuitAt position) rfl]
      refine bubbleDemand_eq_count counted ih reached fun component placed child kind => ?_
      obtain ⟨i, found⟩ := List.getElem?_of_mem placed
      obtain ⟨part, -, holds⟩ := forall₂_getElem? stages.holds found
      obtain ⟨netlist, analyzed, -⟩ := holds.subcircuit child kind
      exact Option.isSome_iff_exists.mpr ⟨netlist, analyzed⟩

/-- What leaves its word in a circuit, after all that it instantiates is analyzed, is too much for
the whole design.
-/
theorem Assembled.not_countable [Arithmetic] (grounded : Grounded library)
    {netlists : List Netlist} {registry : ClockRegistry}
    (assembled : Assembled library netlists registry)
    (checks : Arithmetic.checksOverflow = true) {top target : Nat}
    (reached : ReflTransGen library.Instantiates top target)
    (below
      : ∀ component ∈ (library.circuitAt target).components,
          ∀ child,
            component.kind = .subcircuit child → (ofCircuit? netlists child.position).isSome)
    (excess : (library.circuitAt target).Overflows (countOf netlists))
    : ¬ library.Countable top := by
  intro countable
  rcases excess with ⟨component, placed, uncounted⟩ | ⟨bus, excess⟩
  · exact uncounted (countable.laidOut target reached component placed)
  · obtain ⟨count, counted⟩ := countable.bubbles bus
    have counts := fun circuit reached => (counted circuit reached).1
    have known := assembled.bubbles_eq grounded checks counts
    rw [bubbleDemand_eq_count counts known reached below] at excess
    exact Nat.not_lt.mpr excess (counted target reached).2

/-- A failed analysis of a circuit after all that it instantiates is owed to the circuit. -/
theorem addNetlist_refused [Arithmetic] (grounded : Grounded library) {top target : Nat}
    (reached : ReflTransGen library.Instantiates top target) {before : Hierarchy}
    (assembled : Assembled library before.netlists before.registry)
    (below : library.below target ⊆ positions before.netlists) {error : GenerationError}
    (failed : (addNetlist library (library.circuitAt target)).run before = .error error)
    : Refused library top error := by
  have analysis
      : Netlist.analyze library (library.circuitAt target) before.netlists before.registry
        = .error error := by
    simp only [addNetlist, StateT.run_bind, StateT.run_get] at failed
    cases outcome
        : Netlist.analyze library (library.circuitAt target) before.netlists before.registry with
    | ok analyzed => simp [outcome, bind, Except.bind, pure, Except.pure] at failed
    | error other => simpa [outcome, bind, Except.bind, pure, Except.pure] using failed
  have children (component : Component) (placed : component ∈ (library.circuitAt target).components)
      (child : CircuitRef) (kind : component.kind = .subcircuit child)
      : (ofCircuit? before.netlists child.position).isSome :=
    Netlist.ofCircuit?_isSome.mpr (below (Library.instantiates_of_kind placed kind))
  cases Netlist.failsBy_analyze (grounded.wired_circuitAt target) children error analysis with
  | conflict conflict => exact .inconsistent reached conflict
  | overflow checks excess =>
      exact .overflow checks (assembled.not_countable grounded checks reached children excess)

/-- A visit fails for a cause that lies below the top, by induction on the number of circuits off
the path.
-/
theorem visit_refused [Arithmetic] (grounded : Grounded library) {top : Nat} {waiting : List Nat}
    {path : List Step} {target : CircuitRef} {before : Hierarchy} {error : GenerationError}
    (known : library.Knows target)
    (onPath : OnPath library top waiting path target.position)
    (assembled : Assembled library before.netlists before.registry)
    (failed : (visit library waiting path target).run before = .error error)
    : Refused library top error := by
  unfold visit at failed
  rcases run_bind_eq_error.1 failed with failed | ⟨_, _, got, failed⟩
  · cases failed
  obtain ⟨rfl, rfl⟩ := Prod.mk.inj (run_get_eq_ok.1 got)
  split at failed
  · cases failed
  split at failed
  · next listed =>
      have fewer : (waiting.erase target.position).length < waiting.length := by
        rw [List.length_erase_of_mem listed]
        exact Nat.sub_lt (List.length_pos_of_mem listed) Nat.one_pos
      have each (path : List Step) (child : CircuitRef) (s s' : Hierarchy)
          (run : (visit library (waiting.erase target.position) path child).run s = .ok ((), s')) :=
        visit_visited grounded.wellFormed
          (fun position member => onPath.inside position (List.mem_of_mem_erase member))
          (onPath.distinct.erase _) run
      rcases run_bind_eq_error.1 failed with inner | ⟨_, middle, inner, last⟩
      · -- the first instance whose visit fails, after the visits of those before it
        obtain ⟨_, component, _, _, split, earlier, step⟩ := forM_run_eq_error inner
        have placed : component ∈ (library.circuitAt target.position).components := by
          rw [split]
          simp
        split at step
        · next child kind =>
            have held := (List.getElem?_eq_getElem known.inside)
            have owner : library.circuitAt target.position ∈ library.circuits := by
              simp [Library.circuitAt, Library.circuit?, held]
            exact
              visit_refused grounded (grounded.refers _ owner component placed child kind)
                (onPath.enter grounded.wellFormed listed placed kind)
                ((visited_instances each earlier).assembled assembled) step
        · cases step
      · -- all instances are visited, and the circuit itself fails
        have visited := visited_instances each inner
        exact
          addNetlist_refused grounded onPath.descends.reaches (visited.assembled assembled)
            visited.order.targets_subset last
  · next absent =>
      cases failed
      exact onPath.refused grounded.wellFormed known absent
termination_by waiting.length

-----------------------------------------------------------------------------------------
-- The decision
-----------------------------------------------------------------------------------------

variable {top : CircuitRef}

theorem analyze_refused [Machine] (grounded : Grounded library) (known : library.Knows top)
    {error : GenerationError} (failed : analyze library top = .error error)
    : Refused library top.position error := by
  cases outcome
      : (visit library (List.range library.circuits.length) [] top).run ⟨[], .empty, []⟩ with
  | ok result => simp [analyze, outcome, bind, Except.bind, pure, Except.pure] at failed
  | error other =>
      obtain rfl : other = error := by
        simpa [analyze, outcome, bind, Except.bind, pure, Except.pure] using failed
      exact visit_refused grounded known (.start top.position) .nil outcome

/-- The circuits of an analyzed design are consistent, and none of them lies below itself. -/
theorem analyze_accepted [Machine] (grounded : Grounded library) {hierarchy : Hierarchy}
    (h : analyze library top = .ok hierarchy) {circuit : Nat}
    (reached : ReflTransGen library.Instantiates top.position circuit)
    : ¬ TransGen library.Instantiates circuit circuit
      ∧ (library.circuitAt circuit).Consistent library := by
  obtain ⟨-, visits⟩ := analyze_visits grounded.wellFormed h
  have member := visits.mem_iff_reachable.mpr reached
  refine ⟨(visits.childrenFirst (.nil _)).acyclic member, ?_⟩
  obtain ⟨netlist, listed, rfl⟩ := List.mem_map.mp member
  obtain ⟨children, trees, analyzed, ⟨stages⟩, -⟩ := analyze_stages grounded.wellFormed h listed
  exact stages.consistent (grounded.wired_circuitAt _)

/-- An analyzed design is counted in words where overflow is checked. -/
theorem analyze_countable [Machine] (grounded : Grounded library) {hierarchy : Hierarchy}
    (h : analyze library top = .ok hierarchy) (checks : Arithmetic.checksOverflow = true)
    : library.Countable top.position where
  laidOut := by
    intro circuit reached
    obtain ⟨netlist, found, member, -⟩ := reachable_netlist grounded.wellFormed h reached
    obtain ⟨children, trees, analyzed, ⟨stages⟩, -⟩ := analyze_stages grounded.wellFormed h member
    rw [(Netlist.ofCircuit?_mem found).2] at stages
    exact stages.laidOut checks
  bubbles := by
    intro bus
    refine ⟨countOf hierarchy.netlists bus, fun circuit reached => ?_⟩
    obtain ⟨netlist, found, member, -⟩ := reachable_netlist grounded.wellFormed h reached
    obtain ⟨children, trees, analyzed, ⟨stages⟩, same, -⟩ :=
      analyze_stages grounded.wellFormed h member
    have counted := bubblesCounted grounded.wellFormed h member bus
    have fits := counted.checked checks
    have demand :=
      stages.bubbleDemand_eq (grounded.wired_circuitAt _) same.parts_eq hierarchy.netlists bus
    have count : countOf hierarchy.netlists bus circuit = netlist.bubbles.get bus := by
      rw [countOf, found, Option.elim_some]
    rw [count, counted.count_eq, Nat.mod_eq_of_lt fits]
    refine ⟨?_, fits⟩
    rw [demand, (Netlist.ofCircuit?_mem found).2]

/-- A leaf that is instantiated by way of two circuits, and a pair of circuits that instantiate each
other below a third one.
-/
def diamondAndLoopSteps : List BuildStep :=
  [
    .circuit "Leaf",
    .wire 0 1,
    .pin 0 .input "a" 1,
    .connect 0 0 0 ⟨0, 0⟩,
    .circuit "Left",
    .subcircuit 1 ⟨0, 0, "Leaf"⟩,
    .circuit "Right",
    .subcircuit 2 ⟨0, 0, "Leaf"⟩,
    .circuit "Main",
    .subcircuit 3 ⟨0, 1, "Left"⟩,
    .subcircuit 3 ⟨0, 2, "Right"⟩,
    .circuit "Ping",
    .circuit "Pong",
    .subcircuit 4 ⟨0, 5, "Pong"⟩,
    .subcircuit 5 ⟨0, 4, "Ping"⟩,
    .circuit "Outer",
    .subcircuit 6 ⟨0, 4, "Ping"⟩
  ]

/-- A gate with an attribute that a gate has no use for, in a circuit of its own. -/
def selectGateSteps : List BuildStep :=
  [.circuit "Main", .primitive 0 .and (.ofList [("select", .number 64)])]

end Hierarchy

end SchematicHdl
