import SchematicHdl.Proofs.Netlist.Stages

/-! Connectivity of an analyzed circuit. The bits of component ends that are attached somewhere are
exactly those that resolve to a point, and two of them resolve to the same point just when joins and
splices connect the wire bits that they are attached to.
-/

namespace SchematicHdl

open Net (Point Table Tied)
open Outcome

/-- One bit of an end of a component of a circuit. -/
structure EndBit where
  component : Nat
  endIndex : Nat
  bit : Nat
deriving DecidableEq, Repr

/-- The wire bit that a bit of an end is attached to, by a whole wire or bit by bit. -/
def Circuit.attached? (circuit : Circuit) (library : Library) (place : EndBit)
    : Option WireBit := do
  let component ← circuit.components[place.component]?
  let _ ← (library.ends component)[place.endIndex]?
  Netlist.attachedBit? circuit component place.endIndex place.bit

namespace Netlist

/-- The point that a bit of an end is resolved to. -/
def resolvedAt? (netlist : Netlist) (place : EndBit) : Option Point := do
  let part ← netlist.part? place.component
  let resolved ← part.end? place.endIndex
  resolved.points[place.bit]?.join

variable {library : Library} {circuit : Circuit} {children : List Netlist}
  {registry : ClockRegistry} {analyzed : Analyzed}

/-- A bit of an end resolves to the canonical point of the wire bit it is attached to, and a bit
that is attached nowhere to nothing.
-/
theorem Stages.resolvedAt?_eq [Arithmetic]
    (stages : Stages library circuit children registry analyzed) (place : EndBit)
    : analyzed.netlist.resolvedAt? place
      = (circuit.attached? library place).bind stages.bare.canonical? := by
  have parts := stages.resolvesParts
  simp only [resolvedAt?, Circuit.attached?, Netlist.part?, Part.end?]
  cases here : circuit.components[place.component]? with
  | none =>
      have short : analyzed.netlist.parts.length ≤ place.component := by
        rw [← parts.length_eq]
        exact List.getElem?_eq_none_iff.mp here
      rw [List.getElem?_eq_none short]
      rfl
  | some component =>
      obtain ⟨part, found, resolves⟩ := forall₂_getElem? parts here
      rw [found]
      cases shaped : (library.ends component)[place.endIndex]? with
      | none =>
          have short : part.ends.length ≤ place.endIndex := by
            rw [resolves.length_eq]
            exact List.getElem?_eq_none_iff.mp shaped
          simp [List.getElem?_eq_none short, shaped]
      | some shape =>
          have inside : place.endIndex < part.ends.length := by
            rw [resolves.length_eq]
            exact (List.getElem?_eq_some_iff.mp shaped).1
          have atEnd := List.getElem?_eq_getElem inside
          have resolved := resolves.ends _ _ _ shaped atEnd
          simp [atEnd, shaped, resolved.point_eq]

/-- Every attached wire bit has a canonical point. -/
theorem Stages.attached_known [Arithmetic]
    (stages : Stages library circuit children registry analyzed)
    {place : EndBit} {bit : WireBit} (attached : circuit.attached? library place = some bit)
    : ∃ point, stages.bare.canonical? bit = some point := by
  simp only [Circuit.attached?, Option.bind_eq_bind, Option.bind_eq_some_iff] at attached
  obtain ⟨component, here, shape, shaped, attached⟩ := attached
  obtain ⟨part, -, resolves⟩ := forall₂_getElem? stages.resolvesParts here
  have inside : place.endIndex < part.ends.length := by
    rw [resolves.length_eq]
    exact (List.getElem?_eq_some_iff.mp shaped).1
  have resolved := resolves.ends _ _ _ shaped (List.getElem?_eq_getElem inside)
  exact Option.isSome_iff_exists.mp (resolved.known place.bit bit attached)

theorem Stages.rooted [Arithmetic] (stages : Stages library circuit children registry analyzed)
    {place : EndBit} {point : Point} (resolved : analyzed.netlist.resolvedAt? place = some point)
    : analyzed.netlist.nets.Rooted point := by
  obtain ⟨draft, collected, frozen⟩ := bareNets_collected stages.formed
  rw [stages.resolvedAt?_eq, Option.bind_eq_some_iff] at resolved
  obtain ⟨bit, -, canonical⟩ := resolved
  rw [← Table.rooted_bare, stages.bare_nets, frozen, Table.bare_freeze]
  exact collected.canonical?_rooted (frozen ▸ canonical)

/-- Analysis preserves connectivity: just the attached bits of ends are resolved, two of them to
the same point if and only if their wire bits are connected by joins and splices, and all of them
to bits of root nets.
-/
theorem resolved_iff_connected [Arithmetic] (library : Library) (circuit : Circuit)
    (children : List Netlist)
    (registry : ClockRegistry) (analyzed : Analyzed)
    (done : analyze library circuit children registry = .ok analyzed)
    : (∀ place,
        (analyzed.netlist.resolvedAt? place).isSome = (circuit.attached? library place).isSome)
      ∧ (∀ a b x y,
          circuit.attached? library a = some x
          → circuit.attached? library b = some y
          → (analyzed.netlist.resolvedAt? a = analyzed.netlist.resolvedAt? b
            ↔ Relation.EqvGen (Tied circuit.wires circuit.joins circuit.splices) x y))
      ∧ ∀ place point,
          analyzed.netlist.resolvedAt? place = some point
          → analyzed.netlist.nets.Rooted point := by
  obtain ⟨stages⟩ := analyze_stages done
  obtain ⟨draft, collected, frozen⟩ := bareNets_collected stages.formed
  refine ⟨fun place => ?_, fun a b x y atA atB => ?_, fun place point => stages.rooted⟩
  · rw [stages.resolvedAt?_eq]
    cases attached : circuit.attached? library place with
    | none => rfl
    | some bit =>
        obtain ⟨point, known⟩ := stages.attached_known attached
        simp [known]
  · obtain ⟨p, knownA⟩ := stages.attached_known atA
    obtain ⟨q, knownB⟩ := stages.attached_known atB
    have hasX := collected.hasBit_of_canonical? (frozen ▸ knownA)
    have hasY := collected.hasBit_of_canonical? (frozen ▸ knownB)
    rw [stages.resolvedAt?_eq, stages.resolvedAt?_eq, atA, atB, Option.bind_some,
      Option.bind_some, frozen]
    exact collected.canonical?_eq_iff hasX hasY

/-- A constant on one of two joined wires, and an inverter on a wire spliced to the other one. -/
def splicedCircuit : Circuit :=
  {
    Circuit.empty 0 "Main" with
      wires := [2, 2, 1],
      joins := [(0, 1)],
      splices := [(⟨1, 1⟩, ⟨2, 0⟩)],
      components := [
        ⟨0, .primitive .constant, .ofList [("width", .number 2)], none, [(0, .wire 0)]⟩,
        ⟨1, .primitive .not, .empty, none, [(1, .wire 2)]⟩
      ]
  }

/-- The upper bit of the constant and the input of the inverter resolve to one point, through a
join and a splice.
-/
theorem resolved_through_join_and_splice
    : ∃ analyzed,
        analyze (.empty 0) splicedCircuit [] .empty = .ok analyzed
        ∧ analyzed.netlist.resolvedAt? ⟨0, 0, 1⟩ = analyzed.netlist.resolvedAt? ⟨1, 1, 0⟩ := by
  have succeeds : (analyze (.empty 0) splicedCircuit [] .empty).toOption.isSome = true := by
    decide +kernel
  obtain ⟨analyzed, found⟩ := Option.isSome_iff_exists.mp succeeds
  have done := Outcome.toOption_eq_some.1 found
  refine ⟨analyzed, done, ?_⟩
  have joined
      : Tied splicedCircuit.wires splicedCircuit.joins splicedCircuit.splices ⟨0, 1⟩ ⟨1, 1⟩ :=
    .join (by decide) (rfl : splicedCircuit.wires[0]? = some 2) (by decide)
  have spliced
      : Tied splicedCircuit.wires splicedCircuit.joins splicedCircuit.splices ⟨1, 1⟩ ⟨2, 0⟩ :=
    .splice (by decide)
  have chain := Relation.EqvGen.trans _ _ _ (.rel _ _ joined) (.rel _ _ spliced)
  exact
    ((resolved_iff_connected _ _ _ _ analyzed done).2.1 ⟨0, 0, 1⟩ ⟨1, 1, 0⟩ ⟨0, 1⟩ ⟨2, 0⟩ rfl
      rfl).2 chain

end Netlist

end SchematicHdl
