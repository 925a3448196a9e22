import SchematicHdl.Proofs.Netlist.Ends

/-! The stages of a successful analysis: the nets of a draft that collected the joins and splices of
the circuit, the resolved parts, the parts whose pins are named or turned into bubbles, and the
parts for which instances and clock sources are taken in.
-/

namespace SchematicHdl.Netlist

open Net (Point Table)
open Outcome

theorem bareNets_collected {circuit : Circuit} {nets : Table} (h : bareNets circuit = .ok nets)
    : ∃ draft : Net.Draft,
        draft.Collected circuit.wires circuit.joins circuit.splices ∧ nets = draft.freeze := by
  simp only [bareNets, bind_eq_ok, pure_eq_ok] at h
  obtain ⟨joined, joins, spliced, splices, rfl⟩ := h
  have start := Net.Draft.collected_ofWidths circuit.name circuit.wires
  exact ⟨spliced, (start.joinAll joins).spliceAll splices, rfl⟩

/-- The name that a pin gets on the boundary. -/
def boundaryName (part : Part) : String :=
  Identifier.ofLabel (part.component.label.getD "") part.position

/-- What becomes of a part when the boundary pins are bound: a pin that nothing is connected to
becomes a bubble, every other pin gets a name of its own, and all other parts stay as they are.
-/
inductive Binds [Arithmetic] (circuit : Circuit) (part : Part) (s : Boundary)
    : Part → Boundary → Prop
  | other (notPin : part.isPin = false) : Binds circuit part s part s
  | endless (none : part.ends = []) : Binds circuit part s part s
  | bubble {direction resolved rest allocation range}
    (kind : part.component.kind = .pin direction) (ends : part.ends = resolved :: rest)
    (unconnected : resolved.isUnconnected = true)
    (allocated : s.allocation.allocate direction resolved.width = .ok (allocation, range))
    : Binds circuit part s { part with bubbles := part.bubbles.set direction range }
        { s with allocation }
  | named {direction resolved rest}
    (kind : part.component.kind = .pin direction) (ends : part.ends = resolved :: rest)
    (connected : resolved.isUnconnected = false)
    (fresh : s.names.lookup (Text.foldCase (boundaryName part)) = none)
    : Binds circuit part s { part with portName := some (boundaryName part) }
        {
          s with
            names :=
              (Text.foldCase (boundaryName part), part.component.describe) :: s.names
        }

theorem bindPart_binds [Arithmetic] {circuit : Circuit} {part after : Part} {s s' : Boundary}
    (h : (bindPart circuit part).run s = .ok (after, s'))
    : Binds circuit part s after s' := by
  unfold bindPart at h
  split at h
  · next direction kind =>
      simp only [bindPin, run_bind_eq_ok, run_get_eq_ok, Prod.mk.injEq] at h
      obtain ⟨_, _, ⟨rfl, rfl⟩, h⟩ := h
      split at h
      · next none =>
          cases run_pure_eq_ok.1 h
          exact .endless none
      · next resolved rest ends =>
          split at h
          · next unconnected =>
              simp only [run_bind_eq_ok, run_lift_eq_ok, run_set_eq_ok, run_pure_eq_ok,
                Prod.mk.injEq] at h
              obtain
                ⟨⟨allocation, range⟩, _, ⟨_, allocated, rfl, rfl⟩, _, _, ⟨_, rfl⟩, rfl, rfl⟩ := h
              exact .bubble kind ends unconnected allocated
          · next connected =>
              split at h
              · exact absurd h run_throw_ne_ok
              · next fresh =>
                  simp only [run_bind_eq_ok, run_set_eq_ok, run_pure_eq_ok, Prod.mk.injEq] at h
                  obtain ⟨_, _, ⟨_, rfl⟩, rfl, rfl⟩ := h
                  exact .named kind ends (by simpa using connected) fresh
  · next other =>
      cases run_pure_eq_ok.1 h
      refine .other ?_
      unfold Part.isPin Component.isPin
      split
      · next direction kind => exact absurd kind (other direction)
      · rfl

/-- What becomes of a part when instances and clock sources are taken in. -/
inductive TakesIn [Arithmetic] (circuit : Circuit) (children : List Netlist) (part : Part)
    (s : Inventory)
    : Part → Inventory → Prop
  | other (notInstance : part.category ≠ .subcircuit) (notClock : part.category ≠ .clockSource)
    : TakesIn circuit children part s part s
  | subcircuit {target child allocation bubbles}
    (kind : part.component.kind = .subcircuit target)
    (analyzed : ofCircuit? children target.position = some child)
    (allocated : s.allocation.allocateAll child.bubbles = .ok (allocation, bubbles))
    : TakesIn circuit children part s { part with bubbles }
        {
          s with
            allocation,
            clockTrees :=
              child.clockTrees.foldl (fun trees tree => insertAscending tree trees) s.clockTrees
        }
  | clock {registry tree} (kind : part.component.kind = .clock)
    (registered
      : s.registry.register circuit.name part.component.describe part.component.attributes
        = (registry, tree))
    : TakesIn circuit children part s { part with clockTree := some tree }
        { s with registry, clockTrees := insertAscending tree s.clockTrees }

theorem takeIn_takesIn [Arithmetic] {circuit : Circuit} {children : List Netlist}
    {part after : Part}
    {s s' : Inventory} (h : (takeIn circuit children part).run s = .ok (after, s'))
    : TakesIn circuit children part s after s' := by
  simp only [takeIn, run_bind_eq_ok, run_get_eq_ok, Prod.mk.injEq] at h
  obtain ⟨_, _, ⟨rfl, rfl⟩, h⟩ := h
  split at h
  · next target kind =>
      split at h
      · exact absurd h run_throw_ne_ok
      · next child analyzed =>
          simp only [run_bind_eq_ok, run_lift_eq_ok, run_set_eq_ok, run_pure_eq_ok,
            Prod.mk.injEq] at h
          obtain ⟨⟨allocation, bubbles⟩, _, ⟨_, allocated, rfl, rfl⟩, _, _, ⟨_, rfl⟩, rfl, rfl⟩ := h
          exact .subcircuit kind analyzed allocated
  · next kind =>
      simp only [run_bind_eq_ok, run_set_eq_ok, run_pure_eq_ok, Prod.mk.injEq] at h
      obtain ⟨_, _, ⟨_, rfl⟩, rfl, rfl⟩ := h
      exact .clock kind rfl
  · next notInstance notClock =>
      cases run_pure_eq_ok.1 h
      refine .other ?_ ?_ <;>
        (unfold Part.category Component.category; split <;> simp_all)

/-- The intermediate results of a successful analysis. -/
structure Stages [Arithmetic] (library : Library) (circuit : Circuit) (children : List Netlist)
    (registry : ClockRegistry) (analyzed : Analyzed) where
  bare : Table
  resolved : List Part
  bound : List Part
  boundary : Boundary
  parts : List Part
  inventory : Inventory
  formed : bareNets circuit = .ok bare
  laidOut
    : Arithmetic.checksOverflow = true → ∀ component ∈ circuit.components, component.CountsEnds
  resolves
    : List.Forall₂
        (fun component part => ResolvesPart library circuit bare component part ∧ Unbound part)
        circuit.components resolved
  binds : Threaded (Binds circuit) resolved ⟨.start circuit.name, []⟩ bound boundary
  takes
    : Threaded (TakesIn circuit children) bound ⟨boundary.allocation, [], registry⟩ parts
        inventory
  netlist_eq
    : analyzed.netlist
      = {
          circuit,
          name := Identifier.ofLabel circuit.name circuit.position,
          nets := resolved.foldl filePart bare,
          parts,
          bubbles := inventory.allocation.counts,
          clockTrees := inventory.clockTrees,
          clockPoints := fun point => (sourcePoints children parts).lookup point,
          pinClocks :=
            fun pin =>
              (parts.filterMap
                (outputClock? fun point => (sourcePoints children parts).lookup point)).lookup pin
        }
  registry_eq : analyzed.registry = inventory.registry

theorem analyze_stages [Arithmetic] {library : Library} {circuit : Circuit}
    {children : List Netlist} {registry : ClockRegistry} {analyzed : Analyzed}
    (h : analyze library circuit children registry = .ok analyzed)
    : Nonempty (Stages library circuit children registry analyzed) := by
  simp only [analyze, bind_eq_ok, pure_eq_ok, Prod.exists] at h
  obtain ⟨bare, formed, resolved, resolves, bound, boundary, binds, parts, inventory, takes,
    rfl⟩ := h
  have resolves := mapM_eq_ok.1 resolves
  exact
    ⟨{
      bare,
      resolved,
      bound,
      boundary,
      parts,
      inventory,
      formed,
      laidOut := fun checks component placed => by
        obtain ⟨i, found⟩ := List.getElem?_of_mem placed
        obtain ⟨_, -, resolved⟩ := forall₂_getElem? resolves found
        exact countsEnds_of_resolvePart resolved checks,
      resolves := resolves.imp fun _ _ => resolvePart_spec,
      binds := (mapM_run_eq_ok.1 binds).imp fun _ _ _ _ => bindPart_binds,
      takes := (mapM_run_eq_ok.1 takes).imp fun _ _ _ _ => takeIn_takesIn,
      netlist_eq := rfl,
      registry_eq := rfl
    }⟩

/-- Two versions of a part are of one component and have the same ends. -/
def SameEnds (before after : Part) : Prop :=
  after.component = before.component ∧ after.ends = before.ends

theorem ResolvesPart.sameEnds {library : Library} {circuit : Circuit} {nets : Table}
    {component : Component} {before after : Part}
    (resolves : ResolvesPart library circuit nets component before)
    (same : SameEnds before after)
    : ResolvesPart library circuit nets component after where
  component_eq := same.1.trans resolves.component_eq
  length_eq := same.2 ▸ resolves.length_eq
  ends := same.2 ▸ resolves.ends

theorem Binds.sameEnds [Arithmetic] {circuit : Circuit} {part after : Part} {s s' : Boundary}
    (binds : Binds circuit part s after s')
    : SameEnds part after := by
  cases binds <;> exact ⟨rfl, rfl⟩

theorem TakesIn.sameEnds [Arithmetic] {circuit : Circuit} {children : List Netlist}
    {part after : Part} {s s' : Inventory} (takesIn : TakesIn circuit children part s after s')
    : SameEnds part after := by
  cases takesIn <;> exact ⟨rfl, rfl⟩

namespace Stages

variable {library : Library} {circuit : Circuit} {children : List Netlist}
  {registry : ClockRegistry} {analyzed : Analyzed}

/-- The parts of the netlist are the resolved components of the circuit, in their order. -/
theorem resolvesParts [Arithmetic] (stages : Stages library circuit children registry analyzed)
    : List.Forall₂ (ResolvesPart library circuit stages.bare) circuit.components
        analyzed.netlist.parts := by
  have bound := stages.binds.forall₂ fun _ _ _ _ _ binds => binds.sameEnds
  have taken := stages.takes.forall₂ fun _ _ _ _ _ takes => takes.sameEnds
  have kept := forall₂_trans bound taken fun first second =>
    (⟨second.1.trans first.1, second.2.trans first.2⟩ : SameEnds _ _)
  rw [stages.netlist_eq]
  exact forall₂_trans stages.resolves kept fun resolves same => resolves.1.sameEnds same

theorem circuit_eq [Arithmetic] (stages : Stages library circuit children registry analyzed)
    : analyzed.netlist.circuit = circuit := by
  rw [stages.netlist_eq]

theorem name_eq [Arithmetic] (stages : Stages library circuit children registry analyzed)
    : analyzed.netlist.name = Identifier.ofLabel circuit.name circuit.position := by
  rw [stages.netlist_eq]

theorem bare_nets [Arithmetic] (stages : Stages library circuit children registry analyzed)
    : analyzed.netlist.nets.bare = stages.bare.bare := by
  rw [stages.netlist_eq]
  exact bare_foldl bare_filePart _ _

end Stages

end SchematicHdl.Netlist
