import SchematicHdl.Proofs.Hierarchy.Sound
import SchematicHdl.Proofs.Netlist.Expressions

/-! Bubbles of an analyzed design. On each of its three busses, a circuit counts its own unconnected
pins and the bubbles of the circuits that it instantiates, once for each instance. The counts are
words. As long as they are exact, the ranges of the components fill the busses without overlaps; a
design in which they are not is refused where overflow is checked, and gets busses that are too
narrow elsewhere.
-/

namespace SchematicHdl

open BubbleRange (Fill)
open Netlist (ofCircuit? positions rangesOf Holds bubbleDemand)
open Outcome

namespace Netlist

/-- What is neither a pin nor an instance has no bubbles. -/
theorem Stages.bubbles_none [Arithmetic] {library : Library} {circuit : Circuit}
    {children : List Netlist}
    {registry : ClockRegistry} {analyzed : Analyzed}
    (stages : Stages library circuit children registry analyzed) {part : Part}
    (held : part ∈ analyzed.netlist.parts) (notPin : part.isPin = false)
    (notInstance : part.category ≠ .subcircuit)
    : part.bubbles = .none := by
  have kept : List.Forall₂
      (fun before after =>
        SameEnds before after ∧ (before.category ≠ .subcircuit → after.bubbles = before.bubbles))
      stages.bound stages.parts :=
    stages.takes.forall₂ fun before _ after _ _ takes =>
      ⟨takes.sameEnds, fun notInstance => by
        cases takes with
        | other | clock => rfl
        | subcircuit kind => simp [Part.category, Component.category, kind] at notInstance⟩
  rw [stages.netlist_eq] at held
  obtain ⟨middle, bound, same, later⟩ := forall₂_mem_right kept held
  obtain ⟨before, listed, first⟩ := forall₂_mem_right stages.bounds bound
  obtain ⟨_, -, -, unbound⟩ := forall₂_mem_right stages.resolves listed
  have component_eq : part.component = before.component := same.1.trans first.same.1
  rw [later (by rwa [Part.category, ← same.1]), first.notPin (by rwa [Part.isPin, ← component_eq])]
  exact unbound.1

-----------------------------------------------------------------------------------------
-- The bubbles of a netlist
-----------------------------------------------------------------------------------------

/-- The bubbles of a netlist among the netlists of its design are conserved and packed on a bus. -/
structure BubblesPacked (netlists : List Netlist) (netlist : Netlist) (bus : Direction) : Prop where
  count_eq : netlist.bubbles.get bus = bubbleDemand netlists netlist bus
  disjoint : (rangesOf netlist.parts bus).Pairwise BubbleRange.Disjoint
  covered
    : ∀ index,
        index < netlist.bubbles.get bus
        ↔ ∃ range ∈ rangesOf netlist.parts bus, range.Contains index
  instances
    : ∀ part ∈ netlist.parts,
        ∀ target,
          part.component.kind = .subcircuit target
          → ∃ child,
              ofCircuit? netlists target.position = some child
              ∧ (part.bubbles.get bus).map BubbleRange.length
                = if child.bubbles.get bus = 0 then none else some (child.bubbles.get bus)

/-- What a bus of a netlist counts: what is asked for, as words add it up. Exact counts leave no gap
between the ranges, and where overflow is checked, the counts are exact.
-/
structure BubblesCounted [Arithmetic] (netlists : List Netlist) (netlist : Netlist)
    (bus : Direction)
    : Prop where
  count_eq : netlist.bubbles.get bus = bubbleDemand netlists netlist bus % Word.size
  checked : Arithmetic.checksOverflow = true → bubbleDemand netlists netlist bus < Word.size
  packed_iff : BubblesPacked netlists netlist bus ↔ bubbleDemand netlists netlist bus < Word.size

end Netlist

/-- A range on a bus that holds it is as long as was asked for, and absent when nothing was. -/
theorem Reserved.map_length {width count : Nat} {range? : Option BubbleRange}
    (reserved : Reserved count range?) (word : count < Word.size) (wide : width < Word.size)
    (inside : ∀ range, range? = some range → range.first ≤ range.last ∧ range.last < width)
    : range?.map BubbleRange.length = if count = 0 then none else some count := by
  cases range? with
  | none =>
      have nothing : count = 0 := reserved
      rw [if_pos nothing, Option.map_none]
  | some range =>
      obtain ⟨ordered, within⟩ := inside range rfl
      have last := reserved.last_eq word ordered
      have length : range.length = count := by
        rw [BubbleRange.length_eq ordered (Nat.lt_of_le_of_lt within wide)]
        omega
      rw [if_neg (Nat.ne_of_gt reserved.1), Option.map_some, length]

namespace Hierarchy

variable {library : Library} {top : CircuitRef} {hierarchy : Hierarchy}

theorem analyze_bubbles_none [Machine] (wellFormed : library.WellFormed)
    (h : analyze library top = .ok hierarchy) {netlist : Netlist}
    (member : netlist ∈ hierarchy.netlists) {part : Part} (held : part ∈ netlist.parts)
    (notPin : part.isPin = false) (notInstance : part.category ≠ .subcircuit)
    : part.bubbles = .none := by
  obtain ⟨_, _, analyzed, ⟨stages⟩, same, -⟩ := analyze_stages wellFormed h member
  rw [same.parts_eq] at held
  exact stages.bubbles_none held notPin notInstance

/-- A circuit asks for what it asked for when it was analyzed, since settling keeps all counts. -/
theorem bubbleDemand_settled [Arithmetic] {circuit : Circuit} {children : List Netlist}
    {registry : ClockRegistry} {analyzed : Netlist.Analyzed}
    (stages : Netlist.Stages library circuit children registry analyzed) {netlist : Netlist}
    (same : SameBody analyzed.netlist netlist) {netlists : List Netlist}
    (found
      : ∀ target child,
          ofCircuit? children target = some child
          → ∃ settled, ofCircuit? netlists target = some settled ∧ SameBody child settled)
    (bus : Direction)
    : bubbleDemand netlists netlist bus = bubbleDemand children analyzed.netlist bus := by
  rw [Netlist.bubbleDemand_eq, Netlist.bubbleDemand_eq, same.parts_eq]
  refine congrArg _ (congrArg List.sum (List.map_congr_left fun part held => ?_))
  obtain ⟨component, -, holds⟩ := forall₂_mem_right stages.holds held
  unfold Netlist.innerBubbles Netlist.instantiated?
  cases instantiated : part.component.target? with
  | none => rfl
  | some position =>
      obtain ⟨target, kind, rfl⟩ := Component.target?_eq_some.1 instantiated
      obtain ⟨child, here, -⟩ := holds.subcircuit target (holds.component_eq ▸ kind)
      obtain ⟨settled, there, kept⟩ := found _ _ here
      simp [here, there, kept.bubbles_eq]

/-- The ranges of a circuit fill its busses if it asks for no more bubbles than a word counts. -/
theorem analyze_fill [Machine] (wellFormed : library.WellFormed)
    (h : analyze library top = .ok hierarchy)
    {netlist : Netlist} (member : netlist ∈ hierarchy.netlists) {bus : Direction}
    (fits : bubbleDemand hierarchy.netlists netlist bus < Word.size)
    : Fill (rangesOf netlist.parts bus) (netlist.bubbles.get bus) := by
  obtain ⟨_, _, analyzed, ⟨stages⟩, same, found⟩ := analyze_stages wellFormed h member
  rw [bubbleDemand_settled stages same found] at fits
  rw [same.parts_eq, same.bubbles_eq]
  exact stages.fill fits

theorem bubblesPacked [Machine] (wellFormed : library.WellFormed)
    (h : analyze library top = .ok hierarchy)
    {netlist : Netlist} (member : netlist ∈ hierarchy.netlists) {bus : Direction}
    (fits : bubbleDemand hierarchy.netlists netlist bus < Word.size)
    (count_eq
      : netlist.bubbles.get bus = bubbleDemand hierarchy.netlists netlist bus % Word.size)
    : netlist.BubblesPacked hierarchy.netlists bus := by
  have fill := analyze_fill wellFormed h member fits
  have sound := sound_of_analyze wellFormed h
  refine
    {
      count_eq := count_eq.trans (Nat.mod_eq_of_lt fits),
      disjoint := fill.pairwise_disjoint,
      covered := fun index => fill.contains_iff,
      instances := fun part held target kind => ?_
    }
  obtain ⟨child, found, reserved, -⟩ := (sound.part member held).1.subcircuit target kind
  have word := (sound.netlists child (Netlist.ofCircuit?_mem found).1).words bus
  refine
    ⟨child, found,
      (reserved bus).map_length word ((sound.netlists netlist member).words bus)
        fun range here => ?_⟩
  exact fill.bounds (List.mem_filterMap.mpr ⟨part, held, here⟩)

theorem bubblesCounted [Machine] (wellFormed : library.WellFormed)
    (h : analyze library top = .ok hierarchy)
    {netlist : Netlist} (member : netlist ∈ hierarchy.netlists) (bus : Direction)
    : netlist.BubblesCounted hierarchy.netlists bus := by
  obtain ⟨_, _, analyzed, ⟨stages⟩, same, found⟩ := analyze_stages wellFormed h member
  have demand := bubbleDemand_settled stages same found bus
  obtain ⟨count_eq, checked⟩ := stages.bubbles_eq bus
  rw [← demand, ← same.bubbles_eq] at count_eq
  rw [← demand] at checked
  refine
    ⟨count_eq, checked, fun packed => ?_,
      fun fits => bubblesPacked wellFormed h member fits count_eq⟩
  rw [← packed.count_eq, count_eq]
  exact Nat.mod_lt _ Word.size_pos

/-- Where overflow is checked, no circuit asks for more bubbles than a word counts. -/
theorem bubblesFit [Machine] (wellFormed : library.WellFormed)
    (h : analyze library top = .ok hierarchy) {netlist : Netlist}
    (member : netlist ∈ hierarchy.netlists)
    (counted : Arithmetic.checksOverflow = false → netlist.BubblesFit hierarchy.netlists)
    : netlist.BubblesFit hierarchy.netlists := by
  cases checks : Arithmetic.checksOverflow with
  | true => exact fun bus => (bubblesCounted wellFormed h member bus).checked checks
  | false => exact counted checks

/-- The bubble busses of a circuit hold the ranges of its parts if it asks for no more bubbles than
a word counts.
-/
theorem bubblesHeld [Machine] (wellFormed : library.WellFormed)
    (h : analyze library top = .ok hierarchy) {netlist : Netlist}
    (member : netlist ∈ hierarchy.netlists)
    (counted : Arithmetic.checksOverflow = false → netlist.BubblesFit hierarchy.netlists)
    : netlist.BubblesHeld := by
  intro part held bus range found
  have fits := bubblesFit wellFormed h member counted bus
  exact (analyze_fill wellFormed h member fits).bounds (List.mem_filterMap.mpr ⟨part, held, found⟩)

/-- A leaf circuit with pins that nothing is connected to, and a top circuit that instantiates it
twice and has such a pin itself.
-/
def bubbleSteps : List BuildStep :=
  [
    .circuit "Leaf",
    .pin 0 .input "a" 2,
    .pin 0 .output "y" 1,
    .circuit "Main",
    .subcircuit 1 ⟨0, 0, "Leaf"⟩,
    .pin 1 .output "q" 4,
    .subcircuit 1 ⟨0, 0, "Leaf"⟩
  ]

/-- A tower of circuits. The lowest one has a pin of 64 bits that nothing is connected to, each
other one instantiates the one below it twice, the highest one has pins of its own besides, and the
top circuit instantiates the highest one a number of times.
-/
def towerSteps (bus : Direction) (pins : List BuildStep) (copies : Nat) : List BuildStep :=
  [.circuit "Stage0", .pin 0 bus "p" 64]
    ++ (List.range 25).flatMap (fun stage =>
      [
        .circuit s!"Stage{stage + 1}",
        .subcircuit (stage + 1) ⟨0, stage, s!"Stage{stage}"⟩,
        .subcircuit (stage + 1) ⟨0, stage, s!"Stage{stage}"⟩
      ])
    ++ pins
    ++ [.circuit "Main"]
    ++ List.replicate copies (.subcircuit 26 ⟨0, 25, "Stage25"⟩)

end Hierarchy

end SchematicHdl
