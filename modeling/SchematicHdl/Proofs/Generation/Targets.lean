import SchematicHdl.Proofs.Generation.Architecture
import SchematicHdl.Proofs.Netlist.Interior

/-! Targets of the assignments of a circuit. They are nets, apart from those of output pins: a pin
with a port drives each bit of the port once, and a pin that became a bubble drives its range.
-/

namespace SchematicHdl.Generation

open Hdl (Expr Instance Statement)
open SchematicHdl.Outcome

-----------------------------------------------------------------------------------------
-- Targets of all sections
-----------------------------------------------------------------------------------------

namespace Sections

def targets (sections : Sections) : List Expr :=
  sections.titled.flatMap (fun titled => titled.2.flatMap Statement.targets)

theorem targets_statements (sections : Sections)
    : sections.statements.flatMap Statement.targets = sections.targets :=
  flatMap_statements rfl (fun _ => rfl) sections

end Sections

variable {netlist : Netlist} {draft middle draft' : Draft}

/-- Statements are added to a section other than the wiring. -/
structure Added (statements : List Statement) (draft draft' : Draft) : Prop where
  notes_eq : draft'.notes = draft.notes
  wiring_eq : draft'.sections.wiring = draft.sections.wiring
  targets
    : draft'.sections.targets.Perm
        (draft.sections.targets ++ statements.flatMap Statement.targets)

/-- What is added to one section is added to the targets of all of them. -/
theorem perm_added (front back : List (String × List Statement)) (title : String)
    (section_ added : List Statement)
    : ((front ++ (title, section_ ++ added) :: back).flatMap (fun titled =>
          titled.2.flatMap Statement.targets)).Perm
        ((front ++ (title, section_) :: back).flatMap (fun titled =>
            titled.2.flatMap Statement.targets)
          ++ added.flatMap Statement.targets) := by
  simp only [List.flatMap_append, List.flatMap_cons, List.append_assoc]
  exact (List.perm_append_comm.append_left _).append_left _

/-- Wiring is added where there was none. -/
theorem perm_wired {sections : Sections} (unwired : sections.wiring = []) (wiring : List Statement)
    : (Sections.targets { sections with wiring }).Perm
        (sections.targets ++ wiring.flatMap Statement.targets) := by
  have added
      : (Sections.targets { sections with wiring := sections.wiring ++ wiring }).Perm
          (sections.targets ++ wiring.flatMap Statement.targets) :=
    perm_added [_] _ _ _ _
  rwa [unwired, List.nil_append] at added

section Actions

variable {statements : List Statement}

theorem addClocks_added (h : (addClocks statements).run draft = .ok ((), draft'))
    : Added statements draft draft' := by
  obtain ⟨-, rfl⟩ := Prod.mk.inj (run_modify_eq_ok.1 h)
  exact ⟨rfl, rfl, perm_added [] _ _ _ _⟩

theorem addPins_added (h : (addPins statements).run draft = .ok ((), draft'))
    : Added statements draft draft' := by
  obtain ⟨-, rfl⟩ := Prod.mk.inj (run_modify_eq_ok.1 h)
  exact ⟨rfl, rfl, perm_added [_, _] _ _ _ _⟩

theorem addInlined_added (h : (addInlined statements).run draft = .ok ((), draft'))
    : Added statements draft draft' := by
  obtain ⟨-, rfl⟩ := Prod.mk.inj (run_modify_eq_ok.1 h)
  exact ⟨rfl, rfl, perm_added [_, _, _] _ _ _ _⟩

theorem addNormal_added (h : (addNormal statements).run draft = .ok ((), draft'))
    : Added statements draft draft' := by
  obtain ⟨-, rfl⟩ := Prod.mk.inj (run_modify_eq_ok.1 h)
  exact ⟨rfl, rfl, perm_added [_, _, _, _] _ _ _ _⟩

theorem addSubcircuits_added (h : (addSubcircuits statements).run draft = .ok ((), draft'))
    : Added statements draft draft' := by
  obtain ⟨-, rfl⟩ := Prod.mk.inj (run_modify_eq_ok.1 h)
  exact ⟨rfl, rfl, perm_added [_, _, _, _, _] _ _ _ _⟩

end Actions

-----------------------------------------------------------------------------------------
-- Interior and boundary
-----------------------------------------------------------------------------------------

/-- What a step adds to the targets: some of the interior, and the given ones of the boundary. -/
structure Targets (netlist : Netlist) (boundary : List Expr) (draft draft' : Draft) : Prop where
  openWires : draft.notes.openWires ⊆ draft'.notes.openWires
  wiring_eq : draft'.sections.wiring = draft.sections.wiring
  added
    : ∃ added,
        netlist.Splits draft'.notes.openWires added boundary
        ∧ draft'.sections.targets.Perm (draft.sections.targets ++ added)

namespace Targets

variable {boundary more : List Expr}

theorem none (openWires : draft.notes.openWires ⊆ draft'.notes.openWires)
    (sections : draft'.sections = draft.sections)
    : Targets netlist [] draft draft' where
  openWires := openWires
  wiring_eq := by rw [sections]
  added := ⟨[], .outside, by simp [sections]⟩

theorem trans (first : Targets netlist boundary draft middle)
    (second : Targets netlist more middle draft')
    : Targets netlist (boundary ++ more) draft draft' where
  openWires := List.Subset.trans first.openWires second.openWires
  wiring_eq := second.wiring_eq.trans first.wiring_eq
  added := by
    obtain ⟨early, splits, perm⟩ := first.added
    obtain ⟨late, parts, same⟩ := second.added
    refine ⟨early ++ late, (splits.mono second.openWires).append parts, ?_⟩
    rw [← List.append_assoc]
    exact same.trans (perm.append_right _)

/-- A step that adds to the interior only can follow. -/
theorem followed (first : Targets netlist boundary draft middle)
    (second : Targets netlist [] middle draft')
    : Targets netlist boundary draft draft' := by
  simpa only [List.append_nil] using first.trans second

theorem of_added {statements : List Statement} (added : Added statements draft draft')
    (splits
      : netlist.Splits draft.notes.openWires (statements.flatMap Statement.targets) boundary)
    : Targets netlist boundary draft draft' where
  openWires := by
    rw [added.notes_eq]
    exact List.Subset.refl _
  wiring_eq := added.wiring_eq
  added := ⟨_, by rwa [added.notes_eq], added.targets⟩

theorem inside {statements : List Statement} (added : Added statements draft draft')
    (interior
      : ∀ target ∈ statements.flatMap Statement.targets,
          netlist.Interior draft.notes.openWires target)
    : Targets netlist [] draft draft' :=
  .of_added added (.inside interior)

theorem outside {statements : List Statement} (added : Added statements draft draft')
    : Targets netlist (statements.flatMap Statement.targets) draft draft' :=
  .of_added added .outside

theorem warned {message : String} (h : (draftWarning message).run draft = .ok ((), draft'))
    : Targets netlist [] draft draft' := by
  obtain ⟨-, rfl⟩ := Prod.mk.inj (run_modify_eq_ok.1 h)
  exact .none (List.Subset.refl _) rfl

end Targets

end SchematicHdl.Generation

namespace SchematicHdl.Netlist

open Hdl (Expr Statement)

/-- The name of the port of an output pin. -/
def outputName? (part : Part) : Option String :=
  if part.category = .pin .output then part.portName else none

theorem outputName?_eq_none {part : Part} (notPin : part.isPin = false)
    : outputName? part = none := by
  refine if_neg fun category => ?_
  rw [isPin_of_category category] at notPin
  cases notPin

/-- What drives the port of an output pin. -/
def namedDrivers (netlist : Netlist) (part : Part) : List Expr :=
  match outputName? part, part.end? 0 with
  | some name, some resolved =>
      (Generation.outputPinStatements netlist name resolved).flatMap Statement.targets
  | _, _ => []

/-- What drives the ports of the circuit where a part is placed that is no instance. -/
def placedDrivers (netlist : Netlist) (part : Part) : List Expr :=
  netlist.namedDrivers part ++ if part.isPin then netlist.bubbleDrivers .output part else []

end SchematicHdl.Netlist

namespace SchematicHdl.Generation

open Hdl (Architecture Expr Instance SignalDecl Statement)
open SchematicHdl.Outcome

variable {netlist : Netlist} {mode : ClockMode} {draft middle draft' : Draft}

-----------------------------------------------------------------------------------------
-- Clock sources and pins
-----------------------------------------------------------------------------------------

section Held

variable {library : Library} {netlists : List Netlist} {part : Part}
  (holds : Netlist.Holds library netlists netlist part.component part)
include holds

theorem placeClock_targets (h : (placeClock netlist mode part).run draft = .ok ((), draft'))
    : Targets netlist [] draft draft' := by
  unfold placeClock at h
  split at h
  · next point tree found clocked =>
      refine .inside (addClocks_added h) ?_
      obtain ⟨resolved, there, first⟩ := Option.bind_eq_some_iff.mp found
      have listed := List.mem_of_head? (Option.join_eq_some_iff.mp first)
      have rooted := rooted_of_end holds there point listed
      simp only [List.flatMap_cons, List.flatMap_nil, List.append_nil, Statement.targets,
        List.mem_singleton, forall_eq]
      exact Netlist.interior_pointExpr rooted
  · exact .warned h

omit holds in
/-- What an input pin drives is inside the circuit. -/
theorem inputPinStatements_interior {openWires : List String} {name : String}
    {resolved : ResolvedEnd}
    (rooted : ∀ point, some point ∈ resolved.points → netlist.nets.Rooted point)
    : ∀ target ∈ (inputPinStatements netlist name resolved).flatMap Statement.targets,
        netlist.Interior openWires target := by
  intro target member
  obtain ⟨statement, listed, assigned⟩ := List.mem_flatMap.mp member
  unfold inputPinStatements at listed
  split at listed
  · next expr slice =>
      obtain rfl := List.mem_singleton.mp listed
      obtain rfl := List.mem_singleton.mp assigned
      exact Netlist.interior_endExpr? rooted slice
  · obtain ⟨⟨point?, bit⟩, numbered, made⟩ := List.mem_filterMap.mp listed
    obtain ⟨point, rfl, rfl⟩ := Option.map_eq_some_iff.mp made
    obtain rfl := List.mem_singleton.mp assigned
    have found := List.mem_of_getElem? (List.mem_zipIdx_iff_getElem?.1 numbered)
    exact Netlist.interior_pointExpr (rooted point found)

/-- A pin has bubbles on the bus of its own direction only. -/
theorem bubbleDrivers_of_pin {direction bus : Direction} (category : part.category = .pin direction)
    (other : bus ≠ direction)
    : netlist.bubbleDrivers bus part = [] := by
  obtain ⟨resolved, -, fate⟩ := holds.pin _ (Netlist.kind_of_category category)
  unfold Netlist.bubbleDrivers
  cases fate with
  | bubble _ _ bubbles => rw [bubbles, PerBus.get_set, if_neg other, BubbleRanges.get_none]; rfl
  | named _ _ bubbles => rw [bubbles, BubbleRanges.get_none]; rfl

/-- A pin with a port has no bubbles. -/
theorem bubbleDrivers_of_named {direction bus : Direction} {name : String}
    (category : part.category = .pin direction) (named : part.portName = some name)
    : netlist.bubbleDrivers bus part = [] := by
  obtain ⟨resolved, -, fate⟩ := holds.pin _ (Netlist.kind_of_category category)
  unfold Netlist.bubbleDrivers
  cases fate with
  | bubble _ unnamed => rw [unnamed] at named; cases named
  | named _ _ bubbles => rw [bubbles, BubbleRanges.get_none]; rfl

theorem placeOutputPin_targets (category : part.category = .pin .output) {resolved : ResolvedEnd}
    (found : part.end? 0 = some resolved)
    (h : (placeOutputPin netlist part resolved).run draft = .ok ((), draft'))
    : Targets netlist (netlist.placedDrivers part) draft draft' := by
  have pin : part.isPin = true := Netlist.isPin_of_category category
  unfold placeOutputPin at h
  split at h
  · next name named =>
      have drivers
          : netlist.placedDrivers part
            = (outputPinStatements netlist name resolved).flatMap Statement.targets := by
        simp [Netlist.placedDrivers, Netlist.namedDrivers, Netlist.outputName?, category, named,
          found, bubbleDrivers_of_named holds category named]
      rw [drivers]
      obtain ⟨_, middle, pins, h⟩ := run_bind_eq_ok.1 h
      have first : Targets netlist _ draft middle := .outside (addPins_added pins)
      split at h
      · exact first.followed (.warned h)
      · obtain ⟨-, rfl⟩ := Prod.mk.inj (run_pure_eq_ok.1 h)
        exact first
  · next unnamed =>
      have drivers : netlist.placedDrivers part = netlist.bubbleDrivers .output part := by
        simp [Netlist.placedDrivers, Netlist.namedDrivers, Netlist.outputName?, category, unnamed,
          pin]
      rw [drivers, Netlist.bubbleDrivers, PerBus.get]
      split at h
      · next range reserved =>
          rw [reserved]
          obtain ⟨_, middle, warned, h⟩ := run_bind_eq_ok.1 h
          exact (Targets.warned warned).trans (.outside (addPins_added h))
      · next nothing =>
          rw [nothing]
          obtain ⟨-, rfl⟩ := Prod.mk.inj (run_pure_eq_ok.1 h)
          exact .none (List.Subset.refl _) rfl

/-- What is no output pin drives no port where it is placed. -/
theorem placedDrivers_of_input {direction : Direction} (category : part.category = .pin direction)
    (other : direction ≠ .output)
    : netlist.placedDrivers part = [] := by
  have unnamed : Netlist.outputName? part = none := by
    simp [Netlist.outputName?, category, other]
  simp [Netlist.placedDrivers, Netlist.namedDrivers, unnamed,
    bubbleDrivers_of_pin holds category (Ne.symm other)]

theorem placePin_targets {direction : Direction} (category : part.category = .pin direction)
    (h : (placePin netlist direction part).run draft = .ok ((), draft'))
    : Targets netlist (netlist.placedDrivers part) draft draft' := by
  obtain ⟨resolved, ends, -⟩ := holds.pin _ (Netlist.kind_of_category category)
  have found : part.end? 0 = some resolved := by rw [Part.end?, ends]; rfl
  unfold placePin at h
  rw [found] at h
  cases direction with
  | input =>
      rw [placedDrivers_of_input holds category (by decide)]
      simp only at h
      split at h
      · next name named =>
          refine .inside (addPins_added h) ?_
          exact inputPinStatements_interior (rooted_of_end holds found)
      · obtain ⟨-, rfl⟩ := Prod.mk.inj (run_pure_eq_ok.1 h)
        exact .none (List.Subset.refl _) rfl
  | output => exact placeOutputPin_targets holds category found h
  | inout =>
      rw [placedDrivers_of_input holds category (by decide)]
      obtain ⟨-, rfl⟩ := Prod.mk.inj (run_pure_eq_ok.1 h)
      exact .none (List.Subset.refl _) rfl

end Held

-----------------------------------------------------------------------------------------
-- Components
-----------------------------------------------------------------------------------------

/-- The ends of an instance are tied one after the other. -/
theorem tieBubbles_targets {library : Library} {netlists : List Netlist} {part : Part}
    (holds : Netlist.Holds library netlists netlist part.component part) {child : Netlist}
    (h : (tieBubbles netlist part child).run draft = .ok ((), draft'))
    : Targets netlist [] draft draft' := by
  refine (forM_run_eq_ok.1 h).keeps (P := Targets netlist [] draft) ?_
    (.none (List.Subset.refl _) rfl)
  rintro ⟨resolved, pin⟩ listed s s' step sofar
  refine sofar.followed ?_
  simp only at step
  split at step
  · obtain ⟨_, middle, tied, warned⟩ := run_bind_eq_ok.1 step
    obtain ⟨endIndex, found⟩ := List.getElem?_of_mem (List.of_mem_zip listed).1
    have rooted := rooted_of_end holds found
    refine (Targets.inside (addSubcircuits_added tied) ?_).followed (.warned warned)
    have inside : ∀ point, some point ∈ resolved.points → netlist.interior.nets.Rooted point :=
      rooted
    have assigns
        : ∀ statement ∈ tieEnd netlist.interior resolved,
            statement.Assigns (netlist.interior.scope .derived s.notes.openWires) :=
      tieEnd_assign inside
    exact Netlist.interior_of_assigns assigns
  · obtain ⟨-, rfl⟩ := Prod.mk.inj (run_pure_eq_ok.1 step)
    exact .none (List.Subset.refl _) rfl

/-- A primitive is held without a boundary too. -/
theorem holds_interior {library : Library} {netlists : List Netlist} {part : Part}
    (holds : Netlist.Holds library netlists netlist part.component part) {type : Primitive}
    (kind : part.component.kind = .primitive type)
    : Netlist.Holds library netlists netlist.interior part.component part where
  component_eq := rfl
  ends := holds.ends
  pin := by simp [kind]
  notPin := holds.notPin
  subcircuit := by simp [kind]
  clock := fun tree clocked => absurd (holds.clock tree clocked).1 (by simp [kind])

/-- What is inlined drives nets only. -/
theorem inlineStatements_interior {library : Library}
    {hierarchy : Hierarchy} {placement : Placement} {dialect : Dialect} {realization : Realization}
    (resolves
      : Realization.Resolves hierarchy placement.mode dialect placement.part.component realization)
    (holds
      : Netlist.Holds library hierarchy.netlists placement.netlist placement.part.component
          placement.part)
    (inlined : realization.isInlined = true) {notes notes' : Notes} {statements : List Statement}
    (made : Succeeds (placement.inlineStatements realization) notes statements notes')
    : notes'.openWires = notes.openWires
      ∧ ∀ target ∈ statements.flatMap Statement.targets,
          placement.netlist.Interior notes'.openWires target := by
  have kind : ∃ type, placement.part.component.kind = .primitive type := by
    cases resolves with
    | primitive kind => exact ⟨_, kind⟩
    | subcircuit | external => cases inlined
  obtain ⟨type, kind⟩ := kind
  let bare : Placement := { placement with netlist := placement.netlist.interior }
  have known : Realization.Resolves hierarchy bare.mode dialect bare.part.component realization :=
    resolves
  have there
      : Netlist.Holds library hierarchy.netlists bare.netlist bare.part.component bare.part :=
    holds_interior holds kind
  have same : Succeeds (bare.inlineStatements realization) notes statements notes' := made
  obtain ⟨openWires, assigns⟩ := known.inlineStatements_assign there inlined same
  exact ⟨openWires, Netlist.interior_of_assigns assigns⟩

theorem placedDrivers_of_component {part : Part} (notPin : part.isPin = false)
    : netlist.placedDrivers part = [] := by
  simp [Netlist.placedDrivers, Netlist.namedDrivers, Netlist.outputName?_eq_none notPin, notPin]

section Analyzed

variable {library : Library} {hierarchy : Hierarchy} {options : Options}
  (sound : hierarchy.Sound library) (analyzed : netlist ∈ hierarchy.netlists)
include sound analyzed

theorem placeInstance_targets {part : Part} (held : part ∈ netlist.parts)
    {realization : Realization}
    (resolved
      : Realization.resolve hierarchy options.clockMode options.dialect part.component
        = .ok realization)
    (notInlined : realization.isInlined = false)
    (h
      : (placeInstance netlist options.clockMode part realization).run draft = .ok ((), draft'))
    : Targets netlist [] draft draft' := by
  obtain ⟨holds, supported⟩ := sound.part analyzed held
  simp only [placeInstance, run_bind_eq_ok] at h
  obtain ⟨label, _, labelled, _, _, claimed, inst, _, made, h⟩ := h
  have counted := instanceLabel_draft labelled
  obtain ⟨-, rfl⟩ := claim_run_eq_ok.1 claimed
  obtain ⟨notes, instantiated, rfl⟩ := onPlacement_run_eq_ok made
  obtain ⟨fits, sized⟩ :=
    (Realization.resolve_resolves resolved).fits sound ⟨netlist, part, label, options.clockMode⟩
      holds supported notInlined
  have within :=
    (Placement.instantiate_spec fits sized (sound.netlists _ analyzed).clocks instantiated).1
  rw [counted] at within h
  split at h
  · obtain ⟨_, middle, added, tied⟩ := run_bind_eq_ok.1 h
    have placed : Targets netlist [] _ middle :=
      .inside (addSubcircuits_added added) (by simp [Statement.targets])
    have later := placed.followed (tieBubbles_targets holds tied)
    refine .followed ?_ later
    exact .none within rfl
  · have later : Targets netlist [] _ draft' :=
      .inside (addNormal_added h) (by simp [Statement.targets])
    refine .followed ?_ later
    exact .none within rfl

theorem placeComponent_targets {part : Part} (held : part ∈ netlist.parts)
    (h : (placeComponent hierarchy options netlist part).run draft = .ok ((), draft'))
    : Targets netlist [] draft draft' := by
  obtain ⟨holds, -⟩ := sound.part analyzed held
  simp only [placeComponent, run_bind_eq_ok, run_ofExcept_eq_ok, Prod.mk.injEq] at h
  obtain ⟨realization, _, ⟨_, resolved, rfl, rfl⟩, h⟩ := h
  split at h
  · next inlined =>
      obtain ⟨statements, _, made, added⟩ := run_bind_eq_ok.1 h
      obtain ⟨notes, inlines, rfl⟩ := onPlacement_run_eq_ok made
      obtain ⟨openWires, inside⟩ :=
        inlineStatements_interior (Realization.resolve_resolves resolved) holds inlined inlines
      have later := Targets.inside (addInlined_added added) inside
      refine .followed ?_ later
      exact .none (openWires ▸ List.Subset.refl _) rfl
  · next notInlined =>
      exact placeInstance_targets sound analyzed held resolved (by simpa using notInlined) h

theorem placePart_targets {part : Part} (held : part ∈ netlist.parts)
    (h : (placePart hierarchy options netlist part).run draft = .ok ((), draft'))
    : Targets netlist (netlist.placedDrivers part) draft draft' := by
  obtain ⟨holds, -⟩ := sound.part analyzed held
  unfold placePart at h
  split at h
  · next category =>
      rw [placedDrivers_of_component (Netlist.isPin_eq_false (by simp [category]))]
      exact placeClock_targets holds h
  · next direction category => exact placePin_targets holds category h
  · next category =>
      rw [placedDrivers_of_component (Netlist.isPin_eq_false (by simp [category]))]
      exact placeComponent_targets sound analyzed held h
  · next category =>
      rw [placedDrivers_of_component (Netlist.isPin_eq_false (by simp [category]))]
      exact placeComponent_targets sound analyzed held h

/-- All parts, one after the other, by induction on the parts. -/
theorem placeParts_targets {parts : List Part} (held : ∀ part ∈ parts, part ∈ netlist.parts)
    (h : (parts.forM (placePart hierarchy options netlist)).run draft = .ok ((), draft'))
    : Targets netlist (parts.flatMap netlist.placedDrivers) draft draft' := by
  have chained := forM_run_eq_ok.1 h
  clear h
  induction chained with
  | nil => exact .none (List.Subset.refl _) rfl
  | cons head _ ih =>
      obtain ⟨here, later⟩ := List.forall_mem_cons.mp held
      exact (placePart_targets sound analyzed here head).trans (ih later)

-----------------------------------------------------------------------------------------
-- The architecture
-----------------------------------------------------------------------------------------

theorem wiring_interior (openWires : List String)
    : ∀ target ∈ (netlist.nets.wiring.map (wiringStatement netlist)).flatMap Statement.targets,
        netlist.Interior openWires target := by
  intro target member
  obtain ⟨statement, listed, assigned⟩ := List.mem_flatMap.mp member
  obtain ⟨run, among, rfl⟩ := List.mem_map.mp listed
  obtain rfl := List.mem_singleton.mp assigned
  have rooted := ((sound.netlists _ analyzed).wiring_rooted among).1
  exact Netlist.interior_sliceExpr rooted

/-- The parts are placed in a draft without statements, and the wiring joins what they assign to. -/
theorem draftArchitecture_places {labelCounts : List (String × Nat)} {architecture : Architecture}
    (h
      : (draftArchitecture hierarchy options netlist).run ⟨[], .empty, labelCounts, .empty⟩
        = .ok (architecture, draft))
    : ∃ start placed,
        start.sections = .empty
        ∧ (netlist.parts.forM (placePart hierarchy options netlist)).run start = .ok ((), placed)
        ∧ draft.notes = placed.notes
        ∧ architecture.signals = netSignals netlist ++ openSignals placed.notes.openWires
        ∧ (architecture.statements.flatMap Statement.targets).Perm
            (placed.sections.targets
              ++ (netlist.nets.wiring.map (wiringStatement netlist)).flatMap
                  Statement.targets) := by
  simp only [draftArchitecture, run_bind_eq_ok, run_modify_eq_ok, run_get_eq_ok, run_pure_eq_ok,
    Prod.mk.injEq] at h
  obtain ⟨_, ported, ports, nets, netted, declared, _, placed, parts, _, wired, ⟨_, rfl⟩,
    openWires, _, opened, _, _, ⟨rfl, rfl⟩, rfl, rfl⟩ := h
  obtain ⟨-, -, portSections⟩ := claimPorts_claims ports
  obtain ⟨-, -, netSections, rfl⟩ := declareNets_claims declared
  obtain ⟨-, notes, openSections, rfl⟩ := declareOpenWires_claims opened
  have nothing : netted.sections = .empty := netSections.trans portSections
  -- The wiring is set in one go, where there was none before.
  have unwired : placed.sections.wiring = [] := by
    rw [(placeParts_targets sound analyzed (fun _ => id) parts).wiring_eq, nothing]
    rfl
  refine ⟨netted, placed, nothing, parts, notes, rfl, ?_⟩
  rw [openSections, Sections.targets_statements]
  exact perm_wired unwired _

/-- The targets of an architecture are inside the circuit, apart from those of its output pins. -/
theorem draftArchitecture_targets {labelCounts : List (String × Nat)} {architecture : Architecture}
    (h
      : (draftArchitecture hierarchy options netlist).run ⟨[], .empty, labelCounts, .empty⟩
        = .ok (architecture, draft))
    : ∃ openWires,
        architecture.signals = netSignals netlist ++ openSignals openWires
        ∧ netlist.Splits openWires (architecture.statements.flatMap Statement.targets)
            (netlist.parts.flatMap netlist.placedDrivers) := by
  obtain ⟨start, placed, nothing, parts, -, signals, wired⟩ :=
    draftArchitecture_places sound analyzed h
  obtain ⟨added, splits, perm⟩ := (placeParts_targets sound analyzed (fun _ => id) parts).added
  have empty : start.sections.targets = [] := by
    rw [nothing]
    rfl
  rw [empty, List.nil_append] at perm
  refine ⟨placed.notes.openWires, signals, ?_⟩
  have both := splits.append (.inside (wiring_interior sound analyzed placed.notes.openWires))
  rw [List.append_nil] at both
  exact both.perm (wired.trans (perm.append_right _))

end Analyzed

end SchematicHdl.Generation
