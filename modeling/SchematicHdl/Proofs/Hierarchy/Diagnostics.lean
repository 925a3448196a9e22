import SchematicHdl.Proofs.Hierarchy.Warnings
import SchematicHdl.Proofs.Netlist.Diagnostics

/-! Diagnostics of a design. The circuits that are reached from the top have their ends on file,
each connected bit once, and the warnings tell exactly of the points with several drivers and of the
bits that are read but not driven.
-/

namespace SchematicHdl

open Net (Point)

namespace Netlist

/-- The report on a circuit has one warning for each point with several drivers and one for each net
with bits that are read but not driven, and nothing else.
-/
def Reported (library : Library) (netlist : Netlist) (report : List String) : Prop :=
  ∃ shared undriven,
    netlist.Diagnosed library shared undriven
    ∧ report
      = shared.map (fun (point, count) =>
          sharedWarning netlist.circuit netlist.nets point count)
        ++ undriven.map (fun (net, bits) =>
          undrivenWarning netlist.circuit netlist.nets net bits)

end Netlist

namespace SameBody

variable {before after : Netlist}

theorem load_eq (same : SameBody before after) (library : Library) (role : Role) (point : Point)
    : after.load library role point = before.load library role point := by
  rw [Netlist.load, Netlist.load, same.circuit_eq, same.nets_eq]

/-- What is diagnosed depends on the circuit and its nets alone. -/
theorem diagnosed (same : SameBody before after) {library : Library}
    {shared : List (Point × Nat)} {undriven : List (Nat × List Nat)}
    (told : before.Diagnosed library shared undriven)
    : after.Diagnosed library shared undriven where
  shared_once := told.shared_once
  shared := by simpa only [same.load_eq] using told.shared
  undriven_once := told.undriven_once
  undriven := by simpa only [same.load_eq] using told.undriven

end SameBody

namespace Hierarchy

variable {library : Library} {top : CircuitRef} {hierarchy : Hierarchy}

/-- The ends of an analyzed circuit are on file. -/
theorem analyze_filesEnds [Machine] (wellFormed : library.WellFormed)
    (h : analyze library top = .ok hierarchy) {netlist : Netlist}
    (member : netlist ∈ hierarchy.netlists) (role : Role)
    : netlist.FilesEnds library role := by
  obtain ⟨children, trees, analyzed, ⟨stages⟩, same, -⟩ := analyze_stages wellFormed h member
  rw [Netlist.FilesEnds, same.circuit_eq, same.nets_eq]
  exact stages.filesEnds role

/-- The warnings about an analyzed circuit are the report on it. -/
theorem analyze_reported [Machine] (wellFormed : library.WellFormed)
    (h : analyze library top = .ok hierarchy) {netlist : Netlist}
    (member : netlist ∈ hierarchy.netlists)
    : netlist.Reported library netlist.warnings := by
  obtain ⟨children, trees, analyzed, ⟨stages⟩, same, -⟩ := analyze_stages wellFormed h member
  have told := same.diagnosed stages.diagnosed
  rw [← same.nets_eq] at told
  exact ⟨_, _, told, rfl⟩

/-- Every circuit that is reached from the top has each connected bit of its ends on file once, and
the warnings of the design are one report for each of these circuits.
-/
theorem analyze_diagnosed [Machine] (built : library.Built)
    (h : analyze library top = .ok hierarchy)
    : hierarchy.Covers library top
      ∧ (∀ netlist ∈ hierarchy.netlists,
          netlist.circuit = library.circuitAt netlist.circuit.position
          ∧ ∀ role, netlist.FilesEnds library role)
      ∧ ∃ reports : List (List String),
          hierarchy.warnings = reports.flatten
          ∧ List.Forall₂ (Netlist.Reported library) hierarchy.netlists reports := by
  have wellFormed := built.wellFormed
  refine ⟨analyze_covers wellFormed h, fun netlist member => ⟨?_, ?_⟩, ?_⟩
  · exact (analyze_sound wellFormed h netlist member).circuit_eq
  · exact analyze_filesEnds wellFormed h member
  · refine ⟨hierarchy.netlists.map Netlist.warnings, analyze_warnings h, ?_⟩
    rw [List.forall₂_map_right_iff, List.forall₂_same]
    exact fun netlist member => analyze_reported wellFormed h member

/-- Two pins that share a bit of two spliced wires, and a pin on a bit that nothing drives. -/
def sharedSteps : List BuildStep :=
  [
    .circuit "Main",
    .wire 0 2,
    .wire 0 2,
    .wire 0 3,
    .splice 0 ⟨0, 0⟩ 1 ⟨0, 1⟩ 0,
    .pin 0 .input "a" 2,
    .connect 0 0 0 ⟨0, 0⟩,
    .pin 0 .input "b" 2,
    .connect 0 1 0 ⟨0, 1⟩,
    .pin 0 .output "y" 1,
    .connectBits 0 2 0 [some (⟨0, 2⟩, 2)]
  ]

/-- The shared bit is reported with both of its drivers, and the undriven wire with the bit read. -/
theorem shared_diagnosed
    : ∃ library hierarchy,
        library.Built
        ∧ analyze library ⟨0, 0, "Main"⟩ = .ok hierarchy
        ∧ hierarchy.warnings
          = [
            "Net s_LOGISIM_BUS_0 in circuit \"Main\" has 2 drivers on bit 1.",
            "Net s_LOGISIM_BUS_2 in circuit \"Main\" is read but never driven on bit(s) 2."
          ]
        ∧ hierarchy.Covers library ⟨0, 0, "Main"⟩
        ∧ (∀ netlist ∈ hierarchy.netlists,
            netlist.circuit = library.circuitAt netlist.circuit.position
            ∧ ∀ role, netlist.FilesEnds library role)
        ∧ ∃ reports : List (List String),
            hierarchy.warnings = reports.flatten
            ∧ List.Forall₂ (Netlist.Reported library) hierarchy.netlists reports := by
  have warned
      : (analyzeBuilt? sharedSteps ⟨0, 0, "Main"⟩).map (fun result => result.2.warnings)
        = some
          [
            "Net s_LOGISIM_BUS_0 in circuit \"Main\" has 2 drivers on bit 1.",
            "Net s_LOGISIM_BUS_2 in circuit \"Main\" is read but never driven on bit(s) 2."
          ] := by
    decide +kernel
  obtain ⟨⟨library, hierarchy⟩, found, warnings⟩ := Option.map_eq_some_iff.mp warned
  obtain ⟨built, analyzed⟩ := built_of_analyzeBuilt? found
  exact ⟨library, hierarchy, built, analyzed, warnings, analyze_diagnosed built analyzed⟩

end Hierarchy

end SchematicHdl
