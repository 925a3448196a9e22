import SchematicHdl.Proofs.Netlist.Inventory

/-! Clock trees of an analyzed circuit. Every tree that one of its points or pins carries is among
the trees that it uses: the trees of its clock sources and all trees of the circuits that it
instantiates.
-/

namespace SchematicHdl.Netlist

open Net (Point)
open Outcome

/-- Every tree on a point or on a pin of the netlist is among its clock trees. -/
structure ClocksListed (netlist : Netlist) : Prop where
  points : ∀ point tree, netlist.clockPoints point = some tree → tree ∈ netlist.clockTrees
  pins : ∀ pin tree, netlist.pinClocks pin = some tree → tree ∈ netlist.clockTrees

theorem ClocksListed.clockTreeOf? {netlist : Netlist} (listed : netlist.ClocksListed)
    {point : Point} {tree : Nat} (carries : netlist.clockTreeOf? point = some tree)
    : tree ∈ netlist.clockTrees :=
  listed.points point tree carries

theorem ClocksListed.pinClock? {netlist : Netlist} (listed : netlist.ClocksListed) {pin : Part}
    {tree : Nat} (carries : netlist.pinClock? pin = some tree)
    : tree ∈ netlist.clockTrees :=
  listed.pins pin.position tree carries

theorem ofCircuit?_mem {netlists : List Netlist} {position : Nat} {netlist : Netlist}
    (found : ofCircuit? netlists position = some netlist)
    : netlist ∈ netlists ∧ netlist.circuit.position = position :=
  ⟨List.mem_of_find?_eq_some found, by simpa using List.find?_some found⟩

/-- A tree that leaves a part is one of the trees of the circuit around it. -/
theorem Holds.endTree_listed {library : Library} {children : List Netlist} {netlist : Netlist}
    {component : Component} {part : Part} (holds : Holds library children netlist component part)
    (below : ∀ child ∈ children, child.ClocksListed) {tree : Nat}
    (leaves : some tree ∈ endTrees children part)
    : tree ∈ netlist.clockTrees := by
  rw [endTrees, holds.component_eq] at leaves
  split at leaves
  · exact (holds.clock tree (List.mem_singleton.mp leaves).symm).2
  · next target kind =>
      obtain ⟨child, analyzed, -, trees⟩ := holds.subcircuit target kind
      rw [analyzed] at leaves
      obtain ⟨pin, -, carries⟩ := List.mem_map.mp leaves
      exact trees ((below child (ofCircuit?_mem analyzed).1).pinClock? carries)
  · cases leaves

namespace Stages

variable {library : Library} {circuit : Circuit} {children : List Netlist}
  {registry : ClockRegistry} {analyzed : Analyzed}

theorem clockPoints_eq [Arithmetic] (stages : Stages library circuit children registry analyzed)
    (point : Point)
    : analyzed.netlist.clockPoints point
      = (sourcePoints children analyzed.netlist.parts).lookup point := by
  rw [stages.netlist_eq]

theorem pinClocks_eq [Arithmetic] (stages : Stages library circuit children registry analyzed)
    (pin : Nat)
    : analyzed.netlist.pinClocks pin
      = (analyzed.netlist.parts.filterMap (outputClock? analyzed.netlist.clockPoints)).lookup
          pin := by
  rw [stages.netlist_eq]

theorem clocksListed [Arithmetic] (stages : Stages library circuit children registry analyzed)
    (below : ∀ child ∈ children, child.ClocksListed)
    : analyzed.netlist.ClocksListed := by
  have points : ∀ entry ∈ sourcePoints children analyzed.netlist.parts,
      entry.2 ∈ analyzed.netlist.clockTrees := by
    intro entry member
    obtain ⟨part, listed, source⟩ := List.mem_flatMap.mp (List.mem_reverse.mp member)
    obtain ⟨⟨resolved, tree?⟩, paired, source⟩ := List.mem_flatMap.mp source
    obtain ⟨i, found⟩ := List.getElem?_of_mem listed
    obtain ⟨component, -, holds⟩ := forall₂_getElem? stages.holds.flip found
    cases tree? with
    | none => cases source
    | some tree =>
        obtain ⟨point, -, rfl⟩ := List.mem_map.mp source
        exact holds.endTree_listed below (List.of_mem_zip paired).2
  have carried (point : Point) (tree : Nat)
      (carries : analyzed.netlist.clockPoints point = some tree)
      : tree ∈ analyzed.netlist.clockTrees := by
    rw [stages.clockPoints_eq] at carries
    exact points _ (mem_of_lookup_eq_some carries)
  refine ⟨carried, fun pin tree carries => ?_⟩
  rw [stages.pinClocks_eq] at carries
  obtain ⟨part, -, leaves⟩ := List.mem_filterMap.mp (mem_of_lookup_eq_some carries)
  simp only [outputClock?] at leaves
  split at leaves
  · split at leaves
    · simp only [Option.bind_eq_bind, Option.bind_eq_some_iff, Option.pure_def] at leaves
      obtain ⟨point, -, tree, found, made⟩ := leaves
      obtain ⟨-, rfl⟩ := Prod.mk.inj (Option.some.inj made)
      exact carried point _ found
    · cases leaves
  · cases leaves

end Stages

end SchematicHdl.Netlist
