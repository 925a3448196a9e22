import SchematicHdl.Hierarchy
import SchematicHdl.Proofs.Hierarchy.Order
import SchematicHdl.Proofs.Netlist.Clocks
import SchematicHdl.Proofs.Schematic.Building

/-! Visiting the circuits of a design. The netlists are assembled one by one, each analyzed with the
netlists before it, and their order is that of a depth-first visit from the top circuit.
-/

namespace SchematicHdl

open Outcome
open Netlist (ofCircuit?)

/-- The circuits that a circuit instantiates, in the order of the instances. -/
def Circuit.targets (circuit : Circuit) : List Nat :=
  circuit.components.filterMap Component.target?

/-- The positions of the circuits that the circuit at a position instantiates. -/
def Library.below (library : Library) (position : Nat) : List Nat :=
  (library.circuitAt position).targets

theorem Library.WellFormed.circuitAt_position {library : Library}
    (wellFormed : library.WellFormed) (position : Nat)
    : (library.circuitAt position).position = position := by
  unfold circuitAt circuit?
  cases found : library.circuits[position]? with
  | none => rfl
  | some circuit => exact (wellFormed.circuits position circuit found).position_eq

namespace Netlist

/-- The positions of the circuits of netlists. -/
def positions (netlists : List Netlist) : List Nat :=
  netlists.map (fun netlist => netlist.circuit.position)

theorem positions_append (netlists others : List Netlist)
    : positions (netlists ++ others) = positions netlists ++ positions others :=
  List.map_append

theorem ofCircuit?_isSome {netlists : List Netlist} {position : Nat}
    : (ofCircuit? netlists position).isSome ↔ position ∈ positions netlists := by
  simp [ofCircuit?, positions]

end Netlist

open Netlist (positions)

namespace Hierarchy

/-- Netlists of different circuits of a library, each analyzed with those before it. -/
inductive Assembled [Arithmetic] (library : Library) : List Netlist → ClockRegistry → Prop
  | nil : Assembled library [] .empty
  | snoc {netlists registry position analyzed} (earlier : Assembled library netlists registry)
    (inside : position < library.circuits.length) (fresh : position ∉ positions netlists)
    (done
      : Netlist.analyze library (library.circuitAt position) netlists registry = .ok analyzed)
    : Assembled library (netlists ++ [analyzed.netlist]) analyzed.registry

/-- What visiting circuits one after the other does, with some circuits off the path. -/
structure Visited [Arithmetic] (library : Library) (waiting targets : List Nat)
    (before after : Hierarchy)
    : Prop where
  assembled
    : Assembled library before.netlists before.registry
      → Assembled library after.netlists after.registry
  order
    : Visits library.below targets (positions before.netlists) (positions after.netlists)
  added : ∀ position ∈ positions after.netlists,
    position ∈ positions before.netlists ∨ position ∈ waiting

theorem Visited.nil [Arithmetic] {library : Library} {waiting : List Nat} {hierarchy : Hierarchy}
    : Visited library waiting [] hierarchy hierarchy :=
  ⟨id, .nil, fun _ => .inl⟩

theorem Visited.append [Arithmetic] {library : Library} {waiting targets more : List Nat}
    {before middle after : Hierarchy} (first : Visited library waiting targets before middle)
    (second : Visited library waiting more middle after)
    : Visited library waiting (targets ++ more) before after where
  assembled := second.assembled ∘ first.assembled
  order := first.order.append second.order
  added := fun position member =>
    (second.added position member).elim (first.added position) .inr

/-- One circuit after another along the components of a circuit, by induction on these. -/
theorem visited_components [Arithmetic] {library : Library} {waiting : List Nat}
    {step : Component → Hierarchy → Hierarchy → Prop} {components : List Component}
    {before after : Hierarchy} (chained : Chained step components before after)
    (each
      : ∀ component s s',
          step component s s' → Visited library waiting component.target?.toList s s')
    : Visited library waiting (components.filterMap Component.target?) before after := by
  induction chained with
  | nil => exact .nil
  | cons head _ ih =>
      have both := (each _ _ _ head).append ih
      rw [List.filterMap_cons]
      split <;> simp_all

/-- A successful analysis adds the netlist of its circuit. -/
theorem addNetlist_eq_ok [Arithmetic] {library : Library} {circuit : Circuit}
    {before after : Hierarchy}
    : (addNetlist library circuit).run before = .ok ((), after)
      ↔ ∃ analyzed,
          Netlist.analyze library circuit before.netlists before.registry = .ok analyzed
          ∧ after
            = {
                netlists := before.netlists ++ [analyzed.netlist],
                registry := analyzed.registry,
                warnings := before.warnings ++ analyzed.warnings
              } := by
  simp only [addNetlist, run_bind_eq_ok, run_get_eq_ok, run_lift_eq_ok, run_set_eq_ok,
    Prod.mk.injEq]
  constructor
  · rintro ⟨_, _, ⟨rfl, rfl⟩, _, _, ⟨analyzed, done, rfl, rfl⟩, _, rfl⟩
    exact ⟨analyzed, done, rfl⟩
  · rintro ⟨analyzed, done, rfl⟩
    exact ⟨_, _, ⟨rfl, rfl⟩, _, _, ⟨analyzed, done, rfl, rfl⟩, trivial, rfl⟩

/-- The instances of a circuit are visited in their order, if each of the visits goes its way. -/
theorem visited_instances [Arithmetic] {library : Library} {waiting : List Nat} {path : List Step}
    {circuit : Circuit} {components : List Component} {before after : Hierarchy}
    (each
      : ∀ path child s s',
          (visit library waiting path child).run s = .ok ((), s')
          → Visited library waiting [child.position] s s')
    (h
      : (components.forM (fun component =>
          match component.kind with
          | .subcircuit child =>
              visit library waiting (path ++ [Step.ofInstance circuit component]) child
          | _ => return)).run before = .ok ((), after))
    : Visited library waiting (components.filterMap Component.target?) before after := by
  refine visited_components (forM_run_eq_ok.1 h) fun component s s' step => ?_
  split at step
  · next child kind =>
      have found : component.target? = some child.position :=
        Component.target?_eq_some.2 ⟨child, kind, rfl⟩
      rw [found]
      exact each _ child s s' step
  · next other =>
      obtain ⟨-, rfl⟩ := Prod.mk.inj (run_pure_eq_ok.1 step)
      have leaf : component.target? = none := by
        refine Option.eq_none_iff_forall_ne_some.2 fun position found => ?_
        obtain ⟨child, kind, -⟩ := Component.target?_eq_some.1 found
        exact other child kind
      rw [leaf]
      exact .nil

/-- A circuit is added after the circuits that it instantiates, which are visited with the circuit
itself on the path.
-/
theorem visited_add [Arithmetic] {library : Library} (wellFormed : library.WellFormed)
    {waiting : List Nat}
    {position : Nat} {before middle after : Hierarchy} (inside : position < library.circuits.length)
    (listed : position ∈ waiting) (distinct : waiting.Nodup)
    (unvisited : position ∉ positions before.netlists)
    (visited : Visited library (waiting.erase position) (library.below position) before middle)
    (added : (addNetlist library (library.circuitAt position)).run middle = .ok ((), after))
    : Visited library waiting [position] before after := by
  obtain ⟨analyzed, done, rfl⟩ := addNetlist_eq_ok.1 added
  have fresh : position ∉ positions middle.netlists := by
    intro member
    rcases visited.added _ member with earlier | later
    · exact unvisited earlier
    · exact (List.Nodup.not_mem_erase distinct) later
  have here : analyzed.netlist.circuit.position = position := by
    obtain ⟨stages⟩ := Netlist.analyze_stages done
    rw [stages.netlist_eq]
    exact wellFormed.circuitAt_position _
  have positions_eq
      : positions (middle.netlists ++ [analyzed.netlist])
        = positions middle.netlists ++ [position] := by
    simp [positions, here]
  refine ⟨fun assembled => ?_, ?_, fun other member => ?_⟩
  · exact .snoc (visited.assembled assembled) inside fresh done
  · rw [positions_eq]
    exact .enter unvisited visited.order .nil
  · rw [positions_eq] at member
    rcases List.mem_append.mp member with earlier | last
    · exact (visited.added _ earlier).imp_right List.mem_of_mem_erase
    · exact .inr (List.mem_singleton.mp last ▸ listed)

/-- What a visit does, by induction on the number of circuits off the path. -/
theorem visit_visited [Arithmetic] {library : Library} (wellFormed : library.WellFormed)
    {waiting : List Nat}
    {path : List Step} {target : CircuitRef} {before after : Hierarchy}
    (inside : ∀ position ∈ waiting, position < library.circuits.length)
    (distinct : waiting.Nodup)
    (h : (visit library waiting path target).run before = .ok ((), after))
    : Visited library waiting [target.position] before after := by
  unfold visit at h
  simp only [run_bind_eq_ok, run_get_eq_ok, Prod.mk.injEq] at h
  obtain ⟨_, _, ⟨rfl, rfl⟩, h⟩ := h
  split at h
  · next seen =>
      obtain ⟨-, rfl⟩ := Prod.mk.inj (run_pure_eq_ok.1 h)
      exact ⟨id, .skip (Netlist.ofCircuit?_isSome.1 seen) .nil, fun _ => .inl⟩
  · next unseen =>
      split at h
      · next listed =>
          obtain ⟨_, middle, inner, last⟩ := run_bind_eq_ok.1 h
          have fewer : (waiting.erase target.position).length < waiting.length := by
            rw [List.length_erase_of_mem listed]
            exact Nat.sub_lt (List.length_pos_of_mem listed) Nat.one_pos
          have visited
              : Visited library (waiting.erase target.position) (library.below target.position)
                  before middle := by
            exact
              visited_instances
                (fun _ _ _ _ run =>
                  visit_visited wellFormed
                    (fun position member => inside position (List.mem_of_mem_erase member))
                    (distinct.erase _) run)
                inner
          have unvisited : target.position ∉ positions before.netlists := by
            simpa [Netlist.ofCircuit?_isSome] using unseen
          exact visited_add wellFormed (inside _ listed) listed distinct unvisited visited last
      · exact absurd h run_throw_ne_ok
termination_by waiting.length

/-- The netlists of a design before the clocks sink are assembled one by one, in the order of a
visit from the top circuit.
-/
theorem analyze_eq_ok [Machine] {library : Library} (wellFormed : library.WellFormed)
    {top : CircuitRef}
    {hierarchy : Hierarchy} (h : analyze library top = .ok hierarchy)
    : ∃ netlists,
        hierarchy.netlists = sinkClocks netlists
        ∧ Assembled library netlists hierarchy.registry
        ∧ Visits library.below [top.position] [] (positions netlists) := by
  simp only [analyze, bind_eq_ok, pure_eq_ok, Prod.exists] at h
  obtain ⟨_, visited, run, rfl⟩ := h
  have spec :=
    visit_visited wellFormed (fun _ member => List.mem_range.mp member) List.nodup_range run
  exact ⟨visited.netlists, rfl, spec.assembled .nil, spec.order⟩

end Hierarchy

end SchematicHdl
