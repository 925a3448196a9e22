import SchematicHdl.Proofs.Hierarchy.Sound

/-! Warnings of an analysis. The analysis of a circuit warns of the points with several drivers and
of the bits that its parts read and that none of its parts drives; the warnings of the circuits of a
design are collected one after the other, and none gets lost.
-/

namespace SchematicHdl

open Net (Point Table)
open Outcome

namespace Netlist

/-- The warning about a point with several drivers. -/
def sharedWarning (circuit : Circuit) (nets : Table) (point : Point) (count : Nat) : String :=
  s!"Net {nets.nameAt point.net} in circuit \"{circuit.name}\" has {count} drivers on bit "
    ++ s!"{point.bit}."

/-- The warning about the bits of a net that are read but not driven. -/
def undrivenWarning (circuit : Circuit) (nets : Table) (net : Nat) (bits : List Nat) : String :=
  s!"Net {nets.nameAt net} in circuit \"{circuit.name}\" is read but never driven on bit(s) "
    ++ s!"{Text.commaSeparated bits}."

theorem undrivenWarning_mem {circuit : Circuit} {nets : Table} {net : Nat} {bits : List Nat}
    (listed : (net, bits) ∈ nets.undriven)
    : undrivenWarning circuit nets net bits ∈ undrivenWarnings circuit nets :=
  List.mem_map.mpr ⟨(net, bits), listed, rfl⟩

/-- The warnings about a circuit: its points with several drivers, then its undriven bits. -/
def warnings (netlist : Netlist) : List String :=
  driverWarnings netlist.circuit netlist.nets ++ undrivenWarnings netlist.circuit netlist.nets

theorem analyze_warnings [Arithmetic] {library : Library} {circuit : Circuit}
    {children : List Netlist} {registry : ClockRegistry} {analyzed : Analyzed}
    (h : analyze library circuit children registry = .ok analyzed)
    : analyzed.warnings = analyzed.netlist.warnings := by
  simp only [analyze, bind_eq_ok, pure_eq_ok, Prod.exists] at h
  obtain ⟨bare, -, resolved, -, bound, boundary, -, parts, inventory, -, rfl⟩ := h
  rfl

end Netlist

namespace Hierarchy

/-- What adding a netlist keeps is kept by a visit, by induction on the number of circuits off the
path.
-/
theorem visit_keeps [Arithmetic] {library : Library} {P : Hierarchy → Prop}
    (adds
      : ∀ circuit s s', (addNetlist library circuit).run s = .ok ((), s') → P s → P s')
    {waiting : List Nat} {path : List Step} {target : CircuitRef} {before after : Hierarchy}
    (h : (visit library waiting path target).run before = .ok ((), after)) (start : P before)
    : P after := by
  unfold visit at h
  simp only [run_bind_eq_ok, run_get_eq_ok, Prod.mk.injEq] at h
  obtain ⟨_, _, ⟨rfl, rfl⟩, h⟩ := h
  split at h
  · obtain ⟨-, rfl⟩ := Prod.mk.inj (run_pure_eq_ok.1 h)
    exact start
  · split at h
    · next listed =>
        obtain ⟨_, middle, inner, last⟩ := run_bind_eq_ok.1 h
        have fewer : (waiting.erase target.position).length < waiting.length := by
          rw [List.length_erase_of_mem listed]
          exact Nat.sub_lt (List.length_pos_of_mem listed) Nat.one_pos
        refine adds _ _ _ last ((forM_run_eq_ok.1 inner).keeps ?_ start)
        intro component s s' _ step kept
        split at step
        · exact visit_keeps adds step kept
        · obtain ⟨-, rfl⟩ := Prod.mk.inj (run_pure_eq_ok.1 step)
          exact kept
    · exact absurd h run_throw_ne_ok
termination_by waiting.length

/-- The warnings of an analysis are those about its netlists, in their order. -/
theorem analyze_warnings [Machine] {library : Library} {top : CircuitRef} {hierarchy : Hierarchy}
    (h : analyze library top = .ok hierarchy)
    : hierarchy.warnings = hierarchy.netlists.flatMap Netlist.warnings := by
  simp only [analyze, bind_eq_ok, pure_eq_ok, Prod.exists] at h
  obtain ⟨_, visited, run, rfl⟩ := h
  have collected : visited.warnings = visited.netlists.flatMap Netlist.warnings := by
    refine
      visit_keeps (P := fun hierarchy =>
        hierarchy.warnings = hierarchy.netlists.flatMap Netlist.warnings) ?_ run rfl
    intro circuit s s' added kept
    obtain ⟨analyzed, done, rfl⟩ := addNetlist_eq_ok.1 added
    simp only [kept, List.flatMap_append, List.flatMap_singleton, Netlist.analyze_warnings done]
  -- Sinking the clocks changes neither the circuit of a netlist nor its nets.
  refine collected.trans (flatMap_eq_of_forall₂ (sinkClocks_sameBody visited.netlists) ?_)
  intro raw netlist same
  rw [Netlist.warnings, Netlist.warnings, same.circuit_eq, same.nets_eq]

/-- A bit that a part reads is driven by a part, or a warning tells of its net. -/
theorem driver_or_warning [Machine] {library : Library} (wellFormed : library.WellFormed)
    {top : CircuitRef} {hierarchy : Hierarchy} (h : analyze library top = .ok hierarchy)
    {netlist : Netlist} (member : netlist ∈ hierarchy.netlists) {reader : Part}
    (held : reader ∈ netlist.parts) {net : Nat} {sink : Net.Endpoint}
    (reads : Netlist.Lands reader .reader net sink)
    : (∃ part ∈ netlist.parts,
          ∃ source, Netlist.Lands part .driver net source ∧ source.netBit = sink.netBit)
      ∨ ∃ bits,
          sink.netBit ∈ bits
          ∧ Netlist.undrivenWarning netlist.circuit netlist.nets net bits ∈ hierarchy.warnings := by
  have landed := analyze_landed wellFormed h member
  cases drivers : netlist.nets.drivers ⟨net, sink.netBit⟩ with
  | nil =>
      obtain ⟨bits, listed, inside⟩ :=
        Table.mem_undriven.mpr
          ⟨⟨sink, (landed .reader net sink).mpr ⟨reader, held, reads⟩, rfl⟩, drivers⟩
      refine .inr ⟨bits, inside, analyze_warnings h ▸ List.mem_flatMap.mpr ⟨netlist, member, ?_⟩⟩
      exact List.mem_append_right _ (Netlist.undrivenWarning_mem listed)
  | cons source rest =>
      obtain ⟨there, same⟩ := Table.mem_drivers.mp (drivers ▸ List.mem_cons_self)
      obtain ⟨part, placed, drives⟩ := (landed .driver net source).mp there
      exact .inl ⟨part, placed, source, drives, same⟩

end Hierarchy

end SchematicHdl
