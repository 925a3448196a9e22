import SchematicHdl.Proofs.Hierarchy.Arranging
import SchematicHdl.Proofs.Netlist.Moving
import SchematicHdl.Proofs.Pairing

/-! Hierarchies of moved circuits. The circuits below the top are visited in the order of their
instances, so they come to the same netlists in the same order wherever they stand, and clock trees
sink into them in the same way.
-/

namespace SchematicHdl

open Netlist (ofCircuit?)
open Outcome

def Hierarchy.moved (shift : Nat → Nat) (hierarchy : Hierarchy) : Hierarchy :=
  { hierarchy with netlists := hierarchy.netlists.map (Netlist.moved shift) }

def Hierarchy.Step.moved (shift : Nat → Nat) (step : Hierarchy.Step) : Hierarchy.Step :=
  { step with circuit := shift step.circuit }

namespace Hierarchy

variable {shift : Nat → Nat}

-----------------------------------------------------------------------------------------
-- Visits
-----------------------------------------------------------------------------------------

theorem ofInstance_moved (circuit : Circuit) (component : Component)
    : Step.ofInstance (circuit.moved shift) (component.moved shift)
      = (Step.ofInstance circuit component).moved shift :=
  rfl

/-- The steps that lead back to a circuit are told alike. -/
theorem stepsFrom_moved (injective : Function.Injective shift) (path : List Step) (circuit : Nat)
    : stepsFrom (path.map (Step.moved shift)) (shift circuit) = stepsFrom path circuit := by
  have same
      : (fun step : Step => decide (step.circuit ≠ shift circuit)) ∘ Step.moved shift
        = fun step => decide (step.circuit ≠ circuit) :=
    funext fun step => decide_eq_decide.mpr (not_congr injective.eq_iff)
  rw [stepsFrom, List.dropWhile_map, same, List.map_map]
  rfl

/-- The other state is that of a visit to circuits that are moved. -/
abbrev MovedTo (shift : Nat → Nat) (hierarchy other : Hierarchy) : Prop :=
  other = hierarchy.moved shift

variable {library other : Library} {reached : Nat → Prop}

theorem addNetlist_run [Arithmetic] (library : Library) (circuit : Circuit) (hierarchy : Hierarchy)
    : (addNetlist library circuit).run hierarchy
      = (fun analyzed =>
          ((),
            {
              netlists := hierarchy.netlists ++ [analyzed.netlist],
              registry := analyzed.registry,
              warnings := hierarchy.warnings ++ analyzed.warnings
            }))
        <$> Netlist.analyze library circuit hierarchy.netlists hierarchy.registry := by
  unfold addNetlist
  simp only [StateT.run_bind, StateT.run_get, pure_bind]
  cases Netlist.analyze library circuit hierarchy.netlists hierarchy.registry <;> rfl

theorem addNetlist_moved [Arithmetic] (moves : library.Moves other shift reached) {position : Nat}
    (known : reached position)
    : Agree Eq (MovedTo shift) (addNetlist library (library.circuitAt position))
        (addNetlist other ((library.circuitAt position).moved shift)) := by
  rintro hierarchy _ rfl
  rw [addNetlist_run, addNetlist_run]
  show Paired _ _ _ (_ <$> Netlist.analyze other _ (hierarchy.netlists.map _) hierarchy.registry)
  rw [Netlist.analyze_moved moves (moves.closed position known) (moves.named position known)]
  cases Netlist.analyze library (library.circuitAt position) hierarchy.netlists
      hierarchy.registry with
  | error cause => exact .error rfl
  | ok analyzed =>
      refine .ok ⟨rfl, ?_⟩
      simp only [MovedTo, Hierarchy.moved, List.map_append]
      rfl

/-- Visits the circuit of a component, if the component is an instance. -/
def visitInstance [Arithmetic] (library : Library) (waiting : List Nat) (path : List Step)
    (circuit : Circuit)
    (component : Component) : AnalysisM Unit :=
  match component.kind with
  | .subcircuit child =>
      visit library waiting (path ++ [Step.ofInstance circuit component]) child
  | _ => return

/-- A visit goes through the instances of a circuit, unless it ends at once. -/
theorem visit_run [Arithmetic] (library : Library) (waiting : List Nat) (path : List Step)
    (target : CircuitRef) (hierarchy : Hierarchy)
    : (visit library waiting path target).run hierarchy
      = if (ofCircuit? hierarchy.netlists target.position).isSome then .ok ((), hierarchy)
        else if target.position ∈ waiting then
          StateT.run
            (do
              let circuit := library.circuitAt target.position
              circuit.components.forM
                (visitInstance library (waiting.erase target.position) path circuit)
              addNetlist library circuit)
            hierarchy
        else .error (.recursiveCircuit target.name (stepsFrom path target.position)) := by
  rw [visit]
  simp only [StateT.run_bind, StateT.run_get, pure_bind]
  split
  · rfl
  · split <;> rfl

theorem visitInstance_moved [Arithmetic] {waiting movedWaiting : List Nat} {path : List Step}
    (circuit : Circuit) {component : Component}
    (each
      : ∀ path child,
          component.kind = .subcircuit child
          → Agree Eq (MovedTo shift) (visit library waiting path child)
            (visit other movedWaiting (path.map (Step.moved shift)) (child.moved shift)))
    : Agree Eq (MovedTo shift) (visitInstance library waiting path circuit component)
        (visitInstance other movedWaiting (path.map (Step.moved shift)) (circuit.moved shift)
          (component.moved shift)) := by
  unfold visitInstance
  rw [component.kind_moved]
  cases kind : component.kind with
  | subcircuit child =>
      simp only [ComponentKind.moved, ofInstance_moved, ← List.map_singleton, ← List.map_append]
      exact each _ child kind
  | primitive | pin | clock | external | unknown => exact agree_pure _

/-- A visit from a circuit that is moved, by induction on the number of circuits off the path. -/
theorem visit_moved [Arithmetic] (moves : library.Moves other shift reached)
    {waiting movedWaiting : List Nat}
    (distinct : waiting.Nodup) (movedDistinct : movedWaiting.Nodup)
    (same : ∀ position, reached position → (position ∈ waiting ↔ shift position ∈ movedWaiting))
    {path : List Step} {target : CircuitRef} (known : reached target.position)
    : Agree Eq (MovedTo shift) (visit library waiting path target)
        (visit other movedWaiting (path.map (Step.moved shift)) (target.moved shift)) := by
  rintro hierarchy _ rfl
  have seen
      : ofCircuit? (hierarchy.moved shift).netlists (target.moved shift).position
        = (ofCircuit? hierarchy.netlists target.position).map (Netlist.moved shift) :=
    Netlist.ofCircuit?_moved moves.injective _ _
  have listed : (target.moved shift).position ∈ movedWaiting ↔ target.position ∈ waiting :=
    (same _ known).symm
  rw [visit_run, visit_run, seen, Option.isSome_map]
  split
  · exact .ok ⟨rfl, rfl⟩
  by_cases here : target.position ∈ waiting
  · have content
        : other.circuitAt (target.moved shift).position
          = (library.circuitAt target.position).moved shift :=
      moves.circuitAt _ known
    have fewer : (waiting.erase target.position).length < waiting.length := by
      rw [List.length_erase_of_mem here]
      exact Nat.sub_lt (List.length_pos_of_mem here) Nat.one_pos
    rw [if_pos here, if_pos (listed.mpr here), content]
    refine agree_bind (agree_forM_map _ fun component placed => ?_)
      (fun _ => addNetlist_moved moves known) _ _ rfl
    refine visitInstance_moved _ fun path child kind => ?_
    refine visit_moved moves (distinct.erase _) (movedDistinct.erase _) (fun position inside => ?_)
      (moves.closed _ known component placed child kind)
    rw [distinct.mem_erase_iff, movedDistinct.mem_erase_iff, same position inside]
    exact and_congr_left fun _ => not_congr moves.injective.eq_iff.symm
  · rw [if_neg here, if_neg (mt listed.mp here)]
    refine .error ?_
    show GenerationError.recursiveCircuit _ _ = .recursiveCircuit _ (stepsFrom _ (shift _))
    rw [stepsFrom_moved moves.injective]
    rfl
termination_by waiting.length

-----------------------------------------------------------------------------------------
-- Sinking clocks
-----------------------------------------------------------------------------------------

theorem feeds_moved (injective : Function.Injective shift) (parent : Netlist) (circuit : Nat)
    (pins : List Part) (pin : Nat)
    : feeds (parent.moved shift) (shift circuit) (pins.map (Part.moved shift)) pin
      = feeds parent circuit pins pin := by
  unfold feeds
  show (parent.parts.map (Part.moved shift)).flatMap _ = _
  rw [List.flatMap_map]
  refine congrArg (parent.parts.flatMap ·) (funext fun part => ?_)
  simp only [part.component_moved, Component.kind_moved]
  cases part.component.kind with
  | subcircuit target =>
      simp only [ComponentKind.moved, CircuitRef.moved, injective.eq_iff, List.zip_map_right,
        List.filterMap_map]
      rfl
  | primitive | pin | clock | external | unknown => rfl

theorem inherited?_moved (injective : Function.Injective shift) (parents : List Netlist)
    (netlist : Netlist) (pin : Part)
    : inherited? (parents.map (Netlist.moved shift)) (netlist.moved shift) (pin.moved shift)
      = inherited? parents netlist pin := by
  have fed (parent : Netlist)
      : feeds (parent.moved shift) (netlist.moved shift).circuit.position
          (netlist.moved shift).pins pin.position
        = feeds parent netlist.circuit.position netlist.pins pin.position := by
    rw [netlist.pins_moved]
    exact feeds_moved injective parent _ _ _
  unfold inherited?
  rw [pin.category_moved, List.flatMap_map]
  simp only [show (pin.moved shift).position = pin.position from rfl, fed]
  rfl

theorem pointsAt_moved (netlist : Netlist) (position : Nat)
    : (netlist.moved shift).pointsAt position = netlist.pointsAt position := by
  unfold Netlist.pointsAt
  rw [Netlist.part?_moved]
  cases netlist.part? position <;> rfl

theorem inherit_moved (netlist : Netlist) (pin tree : Nat)
    : inherit (netlist.moved shift) pin tree = (inherit netlist pin tree).moved shift := by
  rw [inherit, pointsAt_moved]
  rfl

theorem settleByPins_moved (injective : Function.Injective shift) (parents : List Netlist)
    (netlist : Netlist)
    : settleByPins (parents.map (Netlist.moved shift)) (netlist.moved shift)
      = (settleByPins parents netlist).moved shift := by
  have same
      : inherited? (parents.map (Netlist.moved shift)) (netlist.moved shift) ∘ Part.moved shift
        = inherited? parents netlist :=
    funext fun pin => inherited?_moved injective parents netlist pin
  rw [settleByPins, settleByPins, netlist.pins_moved, List.filterMap_map, same]
  exact List.foldl_hom (Netlist.moved shift) fun netlist clock => inherit_moved netlist _ _

theorem sinkByPins_moved (injective : Function.Injective shift) (netlists : List Netlist)
    : sinkByPins (netlists.map (Netlist.moved shift))
      = (sinkByPins netlists).map (Netlist.moved shift) := by
  induction netlists with
  | nil => rfl
  | cons netlist rest ih =>
      rw [List.map_cons, sinkByPins, ih, settleByPins_moved injective]
      rfl

/-- The circuits below a circuit that is moved are visited alike. -/
theorem visited_moved [Arithmetic] (moves : library.Moves other shift reached) {top : CircuitRef}
    (known : reached top.position)
    : visited other (top.moved shift)
      = (fun last => (last.1, last.2.moved shift)) <$> visited library top := by
  have agree
      : Agree Eq (MovedTo shift) (visit library (List.range library.circuits.length) [] top)
          (visit other (List.range other.circuits.length) [] (top.moved shift)) :=
    visit_moved moves List.nodup_range List.nodup_range
      (fun position inside =>
        iff_of_true (List.mem_range.mpr (moves.inside position inside))
          (List.mem_range.mpr (moves.movedInside position inside)))
      known
  have ended := agree ⟨[], .empty, []⟩ ⟨[], .empty, []⟩ rfl
  unfold visited
  generalize (visit library _ [] top).run _ = result, (visit other _ [] _).run _ = counterpart
    at ended ⊢
  cases ended with
  | ok here => exact congrArg Except.ok (Prod.ext here.1.symm here.2)
  | error here => exact congrArg Except.error here.symm

theorem inputsApart_moved {netlist : Netlist} (apart : netlist.InputsApart)
    : (netlist.moved shift).InputsApart := by
  unfold Netlist.InputsApart
  simp only [Netlist.pins_moved, List.forall_mem_map, Part.category_moved, pointsAt_moved]
  exact apart

/-- Where input pins share no points, the circuits below a circuit that is moved are analyzed alike,
in any two runs of one build.
-/
theorem analyze_moved {first second : Machine} (same : first.toArithmetic = second.toArithmetic)
    (moves : library.Moves other shift reached) {top : CircuitRef} (known : reached top.position)
    (apart
      : ∀ hierarchy,
          @analyze first library top = .ok hierarchy
          → ∀ netlist ∈ hierarchy.netlists, netlist.InputsApart)
    : @analyze second other (top.moved shift)
      = Hierarchy.moved shift <$> @analyze first library top := by
  have raw := @inputsApart_of_visited _ _ first apart
  rw [analyze_of_inputsApart rfl apart]
  rw [same] at raw ⊢
  have moved := @visited_moved _ _ _ _ second.toArithmetic moves top known
  rw [@analyze_eq_byPins _ _ second]
  · simp only [analyzeByPins, moved]
    cases visited library top with
    | error cause => rfl
    | ok last =>
        refine congrArg Except.ok ?_
        simp only [Hierarchy.moved, sinkByPins_moved moves.injective]
  · intro last done netlist member
    obtain ⟨origin, originDone, rfl⟩ := map_eq_ok.mp (moved ▸ done)
    obtain ⟨bare, beside, rfl⟩ := List.mem_map.mp member
    exact inputsApart_moved (raw originDone bare beside)

theorem netlistOf_moved (injective : Function.Injective shift) (hierarchy : Hierarchy)
    (target : CircuitRef)
    : (hierarchy.moved shift).netlistOf (target.moved shift)
      = Netlist.moved shift <$> hierarchy.netlistOf target := by
  have found
      : ofCircuit? (hierarchy.moved shift).netlists (target.moved shift).position
        = (ofCircuit? hierarchy.netlists target.position).map (Netlist.moved shift) :=
    Netlist.ofCircuit?_moved injective _ _
  rw [netlistOf, netlistOf, found]
  cases ofCircuit? hierarchy.netlists target.position <;> rfl

end Hierarchy

end SchematicHdl
