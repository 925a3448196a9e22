import SchematicHdl.Proofs.Generation.Keys
import SchematicHdl.Proofs.Hierarchy.PortNames

/-! Ports that are called alike. Forming the architecture of a circuit claims the names of its ports
first, so it fails where a pin is called like a port for clocks or bubbles. A hand-written
architecture is taken as it is, with a header that declares both ports.
-/

namespace SchematicHdl.Generation

open Hdl (Architecture PortDecl)
open Netlist (positions)
open SchematicHdl.Outcome

-----------------------------------------------------------------------------------------
-- Claiming the names of ports
-----------------------------------------------------------------------------------------

/-- What claimed names stand for, by induction on the items that they are for. -/
theorem names_of_forM {α : Type} {items : List α} {nameOf what : α → String} {scope : String}
    {draft draft' : Draft}
    (h
      : (items.forM (fun item => claim scope (nameOf item) (what item))).run draft
        = .ok ((), draft'))
    : draft'.names
      = (items.map (fun item => (Text.foldCase (nameOf item), what item))).reverse
        ++ draft.names := by
  have chained := forM_run_eq_ok.1 h
  clear h
  induction chained with
  | nil => rfl
  | cons head _ ih =>
      obtain ⟨-, rfl⟩ := claim_run_eq_ok.1 head
      simp [ih]

variable {hierarchy : Hierarchy} {options : Options} {netlist : Netlist} {mode : ClockMode}

/-- The failure of a circuit that has two ports of one name. -/
def portClash (netlist : Netlist) (first second : String) : GenerationError :=
  .identifierCollision second netlist.name s!"port \"{first}\"" s!"port \"{second}\""

/-- Two ports of the circuit have names that are the same but for letter case. -/
inductive Clashes (netlist : Netlist) (mode : ClockMode) : GenerationError → Prop
  | ports {first second} (earlier : first ∈ netlist.portNames mode)
    (later : second ∈ netlist.portNames mode) (same : Text.foldCase first = Text.foldCase second)
    : Clashes netlist mode (portClash netlist first second)

theorem claimPorts_clashes (draft : Draft)
    (twice : ¬ ((netlist.portNames mode).map Text.foldCase).Nodup) (fresh : draft.names = [])
    : ∃ cause, (claimPorts netlist mode).run draft = .error cause ∧ Clashes netlist mode cause := by
  cases ended : (claimPorts netlist mode).run draft with
  | ok result =>
      obtain ⟨⟨⟩, last⟩ := result
      have claims := (claimPorts_claims ended).1
      have once := claims.distinct (by simp [Draft.claimed, fresh])
      rw [claims.claimed.nodup_iff] at once
      exact absurd (List.nodup_append.mp once).1 twice
  | error cause =>
      refine ⟨cause, rfl, ?_⟩
      obtain ⟨before, port, after, middle, split, succeeded, failed⟩ := forM_run_eq_error ended
      obtain ⟨what, found, rfl⟩ := claim_run_eq_error failed
      have entry := mem_of_lookup_eq_some found
      rw [names_of_forM succeeded, fresh, List.append_nil, List.mem_reverse] at entry
      obtain ⟨earlier, listed, known⟩ := List.mem_map.mp entry
      obtain ⟨same, rfl⟩ := Prod.mk.inj known
      refine .ports (List.mem_map_of_mem ?_) (List.mem_map_of_mem ?_) same
      · rw [split]
        exact List.mem_append_left _ listed
      · simp [split]

/-- No architecture is formed for a circuit with two ports of one name. -/
theorem structuralArchitecture_clashes
    (twice : ¬ ((netlist.portNames options.clockMode).map Text.foldCase).Nodup) (run : Run)
    : ∃ cause,
        (structuralArchitecture hierarchy options netlist).run run = (.error cause, run)
        ∧ Clashes netlist options.clockMode cause := by
  obtain ⟨cause, failed, clashes⟩ :=
    claimPorts_clashes ⟨[], .empty, run.labelCounts, .empty⟩ twice rfl
  have drafted
      : (draftArchitecture hierarchy options netlist).run ⟨[], .empty, run.labelCounts, .empty⟩
        = .error cause :=
    run_bind_eq_error.2 (.inl failed)
  refine ⟨cause, ?_, clashes⟩
  have got : (get : RunM Run).run run = (.ok run, run) := rfl
  rw [structuralArchitecture, run_keeping_bind, got]
  dsimp only
  rw [drafted]
  rfl

-----------------------------------------------------------------------------------------
-- Runs that come to an architecture
-----------------------------------------------------------------------------------------

/-- While the architecture of a circuit is formed, the architecture of a circuit comes next, of the
circuit itself or of one inside it: all that it instantiates is emitted.
-/
inductive ComesToBody [Arithmetic] (hierarchy : Hierarchy) (options : Options) (target : Netlist)
    (last : Run)
    : Nat → Netlist → Run → Prop
  | here {bound run}
    (emitted : Succeeds (target.parts.forM (emitPart hierarchy options bound)) run ⟨⟩ last)
    : ComesToBody hierarchy options target last bound target run
  | inside {bound netlist run position child opened}
    (enters : Enters hierarchy options bound netlist run position child opened)
    (inner : ComesToBody hierarchy options target last position child opened)
    : ComesToBody hierarchy options target last bound netlist run

variable {library : Library} {target : Netlist} {last : Run}

/-- Where the architecture of a circuit cannot be formed, the circuits around it fail as well, by
induction on the way to the circuit.
-/
theorem ComesToBody.fails [Arithmetic] (sound : hierarchy.Sound library)
    (childrenFirst : ChildrenFirst library.below (positions hierarchy.netlists)) {bound : Nat}
    {before after : List Netlist} {run : Run}
    (split : hierarchy.netlists = before ++ netlist :: after) (room : before.length ≤ bound)
    (comes : ComesToBody hierarchy options target last bound netlist run)
    (generated : target.circuit.customBody options.dialect = none) {cause : GenerationError}
    {final : Run}
    (failed
      : (structuralArchitecture hierarchy options target).run { last with labelCounts := [] }
        = (.error cause, final))
    : ∃ after,
        (circuitArchitecture hierarchy options bound netlist).run run = (.error cause, after) := by
  induction comes generalizing before after with
  | here emitted =>
      have reset : resetLabels.run last = (.ok (), { last with labelCounts := [] }) := rfl
      refine ⟨final, ?_⟩
      rw [circuitArchitecture_eq, run_keeping_bind, show _ = _ from emitted]
      dsimp only
      rw [run_keeping_bind, reset, generated]
      exact failed
  | inside enters _ ih =>
      obtain ⟨outside, between, around, rfl, fails⟩ := enters.fails sound childrenFirst split room
      obtain ⟨inner, stopped⟩ := ih around (Nat.le_refl _)
      obtain ⟨levels, failed⟩ := fails _ _ stopped
      exact ⟨_, failed⟩

/-- In a run, the architecture of a circuit comes next. -/
inductive MeetsBody [Machine] (library : Library) (top : CircuitRef) (options : Options)
    (target : Netlist)
    (last : Run)
    : Prop
  | below {hierarchy : Hierarchy} {netlist : Netlist}
    (analyzed : Hierarchy.analyze library top = .ok hierarchy)
    (found : hierarchy.netlistOf top = .ok netlist) (realizable : netlist.isRealizable = true)
    (comes
      : ComesToBody hierarchy options target last hierarchy.netlists.length netlist
          (Run.opened { Run.start with warnings := hierarchy.warnings }
            (netlist.form options.clockMode) netlist.name))

/-- A run that comes to a circuit with two ports of one name fails for them. -/
theorem MeetsBody.clashes [Machine] {top : CircuitRef} (wellFormed : library.WellFormed)
    (meets : MeetsBody library top options target last)
    (generated : target.circuit.customBody options.dialect = none)
    (twice : ¬ ((target.portNames options.clockMode).map Text.foldCase).Nodup)
    : ∃ cause,
        (generate library top options).error = some cause
        ∧ Clashes target options.clockMode cause := by
  obtain @⟨hierarchy, netlist, analyzed, found, realizable, comes⟩ := meets
  obtain ⟨sound, childrenFirst, before, after, split, room⟩ := top_split wellFormed analyzed found
  obtain ⟨cause, failed, clashes⟩ := structuralArchitecture_clashes twice _
  obtain ⟨final, stopped⟩ := comes.fails sound childrenFirst split room generated failed
  refine ⟨cause, ?_, clashes⟩
  have ran : ((generateM library top options).run .start).run = _ :=
    generateM_fails wellFormed analyzed found realizable stopped
  rw [generate, ran]

-----------------------------------------------------------------------------------------
-- Headers of emitted circuits
-----------------------------------------------------------------------------------------

/-- What an emitted circuit declares: the ports for its clocks and bubbles, all of different names,
and those of its pins, again of different names. All ports have different names just when no pin is
called like a port for clocks or bubbles, which is so wherever the architecture was formed for the
circuit.
-/
structure DeclaresPorts (options : Options) (netlist : Netlist) (definition : Emitted) : Prop where
  form_eq : definition.form = netlist.form options.clockMode
  ports
    : (definition.unit.ports.map PortDecl.name).Perm
        (netlist.reservedNames options.clockMode ++ netlist.pinNames)
  reserved : ((netlist.reservedNames options.clockMode).map Text.foldCase).Nodup
  pins : (netlist.pinNames.map Text.foldCase).Nodup
  once
    : ((definition.unit.ports.map PortDecl.name).map Text.foldCase).Nodup
      ↔ netlist.NamesPinsApart options.clockMode
  custom
    : ∀ text,
        netlist.circuit.customBody options.dialect = some text
        → definition.architecture = .raw text
  generated
    : netlist.circuit.customBody options.dialect = none
      → ((definition.unit.ports.map PortDecl.name).map Text.foldCase).Nodup

/-- A written circuit declares its ports; by cases on where its architecture is from. -/
theorem declaresPorts_of_ends (sound : hierarchy.Sound library)
    (member : netlist ∈ hierarchy.netlists)
    (names
      : ((netlist.reservedNames options.clockMode).map Text.foldCase).Nodup
        ∧ (netlist.pinNames.map Text.foldCase).Nodup)
    {body : Architecture} {before after : Run}
    (ends : Ends hierarchy options netlist before body after)
    : DeclaresPorts options netlist ⟨netlist.form options.clockMode, body⟩ := by
  have ports
      : (Emitted.unit ⟨netlist.form options.clockMode, body⟩).ports.map PortDecl.name
        = netlist.portNames options.clockMode :=
    portNames_unit _ _
  refine ⟨rfl, ?_, names.1, names.2, ?_, fun text custom => ?_, fun generated => ?_⟩
  · rw [ports]
    exact netlist.portNames_perm _
  · rw [ports]
    exact Netlist.portNames_distinct_iff names.1 names.2
  · cases ends with
    | custom here => exact congrArg Architecture.raw (Option.some.inj (here.symm.trans custom))
    | structural generated => cases generated.symm.trans custom
  · cases ends with
    | custom here => cases generated.symm.trans here
    | structural _ succeeds =>
        obtain ⟨openWires, formed⟩ := structuralArchitecture_formed sound member succeeds
        rw [ports]
        have distinct := formed.distinct
        rw [List.append_assoc, List.map_append] at distinct
        exact (List.nodup_append.mp distinct).1

/-- Every circuit that a successful run writes declares its ports. -/
theorem generate_declares [Machine] (built : library.Built) {top : CircuitRef}
    (succeeds : (generate library top options).error = none)
    : ∃ hierarchy,
        Hierarchy.analyze library top = .ok hierarchy
        ∧ ∀ definition ∈ (generate library top options).emitted,
            definition.form.isCircuit = true
            → ∃ netlist ∈ hierarchy.netlists, DeclaresPorts options netlist definition := by
  obtain ⟨hierarchy, run, analyzed, outcome_eq, valid, -⟩ :=
    generate_valid built.wellFormed succeeds
  have sound := Hierarchy.sound_of_analyze built.wellFormed analyzed
  refine ⟨hierarchy, analyzed, fun definition listed circuit => ?_⟩
  rw [outcome_eq] at listed
  obtain ⟨earlier, later, split⟩ := List.append_of_mem listed
  cases valid.linked.backed split with
  | leaf _ _ resolved _ leaf =>
      rw [(Realization.resolve_resolves resolved).isCircuit_eq leaf] at circuit
      cases circuit
  | @circuit netlist body _ _ member ends =>
      have names := Hierarchy.analyze_portNames built analyzed member options.clockMode
      exact ⟨netlist, member, declaresPorts_of_ends sound member names ends⟩

/-- Circuits are written with ports of different names, unless an architecture is written by hand
for them. In a successful run for a design from a file, the ports of a written circuit have
different names just when none of its pins is called like a port for clocks or bubbles, and they
always do if its architecture is formed. A run that comes to form the architecture of a circuit
with two ports of one name fails for such ports.
-/
theorem generate_declaresPorts [Machine] {file : DesignFile} {top : CircuitRef}
    (elaborated : file.elaborate = .ok (library, top)) (options : Options)
    : ((generate library top options).error = none
        → ∃ hierarchy,
          Hierarchy.analyze library top = .ok hierarchy
          ∧ ∀ definition ∈ (generate library top options).emitted,
              definition.form.isCircuit = true
              → ∃ netlist ∈ hierarchy.netlists, DeclaresPorts options netlist definition)
      ∧ ∀ netlist last,
          MeetsBody library top options netlist last
          → netlist.circuit.customBody options.dialect = none
          → ¬ ((netlist.portNames options.clockMode).map Text.foldCase).Nodup
          → ∃ cause,
            (generate library top options).error = some cause
            ∧ Clashes netlist options.clockMode cause := by
  have built := (DesignFile.elaborate_builtWithCare elaborated).built
  exact
    ⟨generate_declares built, fun netlist last meets => meets.clashes built.wellFormed⟩

/-- A circuit with a clock and a pin that is called like the port of the clock. -/
def clockPinFile (customBodies : List (Dialect × String)) : DesignFile where
  top := "main"
  circuits := [
    {
      name := "main",
      wires := [1, 1],
      joins := [],
      splices := [],
      components := [
        ⟨"clock", none, .empty, [some (.wire 0)], none, none, none, none⟩,
        ⟨"input_pin", some "LOGISIM_CLOCK_TREE_0", .empty, [some (.wire 1)], none, none, some 1,
          none⟩
      ],
      customBodies
    }
  ]
  entities := []

def clockPinBody : String := "architecture own of main is\nbegin\nend own;"

/-- With an architecture by hand, the circuit is written, and it declares two ports of one name. -/
theorem clockPin_written
    : ∃ library top hierarchy definition,
        (clockPinFile [(.vhdl, clockPinBody)]).elaborate = .ok (library, top)
        ∧ Hierarchy.analyze library top = .ok hierarchy
        ∧ (∀ netlist ∈ hierarchy.netlists, netlist.circuit.customBody .vhdl = some clockPinBody)
        ∧ (generate library top registerOptions).error = none
        ∧ definition ∈ (generate library top registerOptions).emitted
        ∧ definition.form.isCircuit = true
        ∧ ¬ ((definition.unit.ports.map PortDecl.name).map Text.foldCase).Nodup := by
  have written
      : (do
          let design ← (clockPinFile [(.vhdl, clockPinBody)]).elaborate.toOption
          let hierarchy ← (Hierarchy.analyze design.1 design.2).toOption
          let outcome := generate design.1 design.2 registerOptions
          return (hierarchy.netlists.map (fun netlist => netlist.circuit.customBody .vhdl),
            outcome.error,
            outcome.emitted.map (fun definition =>
              (definition.form.isCircuit, definition.unit.ports.map PortDecl.name))))
        = some
            ([some clockPinBody], none,
              [(true, ["LOGISIM_CLOCK_TREE_0", "LOGISIM_CLOCK_TREE_0"])]) := by
    decide +kernel
  simp only [bind, Option.bind_eq_some_iff, toOption_eq_some] at written
  obtain ⟨⟨library, top⟩, elaborated, hierarchy, analyzed, values⟩ := written
  simp only [pure, Option.some.injEq, Prod.mk.injEq] at values
  obtain ⟨bodies, succeeds, headers⟩ := values
  obtain ⟨definition, emitted, header⟩ := List.map_eq_singleton_iff.mp headers
  obtain ⟨circuit, names⟩ := Prod.mk.inj header
  refine
    ⟨library, top, hierarchy, definition, elaborated, analyzed, fun netlist member => ?_, succeeds,
      by simp [emitted], circuit, by rw [names]; decide⟩
  have body := List.mem_map_of_mem (f := fun netlist => netlist.circuit.customBody .vhdl) member
  rw [bodies] at body
  exact List.mem_singleton.mp body

/-- Parts without definitions of their own emit nothing, by induction on the parts. -/
theorem emitParts_unplaced [Arithmetic] {bound : Nat} {parts : List Part}
    (each : ∀ part ∈ parts, isPlaced part = false) (run : Run)
    : Succeeds (parts.forM (emitPart hierarchy options bound)) run ⟨⟩ run := by
  induction parts with
  | nil => rfl
  | cons part rest ih =>
      obtain ⟨here, later⟩ := List.forall_mem_cons.mp each
      refine succeeds_bind.2 ⟨⟨⟩, run, ?_, ih later⟩
      rw [emitPart, here]
      rfl

/-- Written by hand, the circuit has a pin that is called like the port of the clock; and a run that
forms its architecture fails for two ports of one name.
-/
theorem clockPin_declaresPorts
    : (∃ library top definition netlist,
          (clockPinFile [(.vhdl, clockPinBody)]).elaborate = .ok (library, top)
          ∧ definition ∈ (generate library top registerOptions).emitted
          ∧ DeclaresPorts registerOptions netlist definition
          ∧ ¬ netlist.NamesPinsApart .derived)
      ∧ ∃ library top netlist cause,
          (clockPinFile []).elaborate = .ok (library, top)
          ∧ (generate library top registerOptions).error = some cause
          ∧ Clashes netlist .derived cause := by
  constructor
  · obtain ⟨library, top, hierarchy, definition, elaborated, -, -, succeeds, listed, circuit,
      twice⟩ := clockPin_written
    obtain ⟨_, -, declares⟩ := (generate_declaresPorts elaborated registerOptions).1 succeeds
    obtain ⟨netlist, -, declared⟩ := declares definition listed circuit
    exact
      ⟨library, top, definition, netlist, elaborated, listed, declared,
        fun apart => twice (declared.once.mpr apart)⟩
  · have meeting
        : (do
            let design ← (clockPinFile []).elaborate.toOption
            let hierarchy ← (Hierarchy.analyze design.1 design.2).toOption
            let netlist ← (hierarchy.netlistOf design.2).toOption
            return (netlist.isRealizable, netlist.parts.all (fun part => !isPlaced part),
              netlist.circuit.customBody .vhdl, netlist.portNames .derived))
          = some (true, true, none, ["LOGISIM_CLOCK_TREE_0", "LOGISIM_CLOCK_TREE_0"]) := by
      decide +kernel
    simp only [bind, Option.bind_eq_some_iff, toOption_eq_some] at meeting
    obtain ⟨⟨library, top⟩, elaborated, hierarchy, analyzed, netlist, found, values⟩ := meeting
    simp only [pure, Option.some.injEq, Prod.mk.injEq] at values
    obtain ⟨realizable, unplaced, generated, names⟩ := values
    have each : ∀ part ∈ netlist.parts, isPlaced part = false := by
      simpa using unplaced
    have meets : MeetsBody library top registerOptions netlist _ :=
      .below analyzed found realizable (.here (emitParts_unplaced each _))
    obtain ⟨cause, failed, clashes⟩ :=
      (generate_declaresPorts elaborated registerOptions).2 netlist _ meets generated
        (by rw [show netlist.portNames registerOptions.clockMode = _ from names]; decide)
    exact ⟨library, top, netlist, cause, elaborated, failed, clashes⟩

/-- A run succeeds though it writes a circuit that declares two ports of one name. -/
theorem clockPin_declaresTwice
    : ∃ library top definition,
        (clockPinFile [(.vhdl, clockPinBody)]).elaborate = .ok (library, top)
        ∧ (generate library top registerOptions).error = none
        ∧ definition ∈ (generate library top registerOptions).emitted
        ∧ definition.form.isCircuit = true
        ∧ definition.architecture = .raw clockPinBody
        ∧ ¬ ((definition.unit.ports.map PortDecl.name).map Text.foldCase).Nodup := by
  obtain ⟨library, top, hierarchy, definition, elaborated, analyzed, bodies, succeeds, listed,
    circuit, twice⟩ := clockPin_written
  have built := (DesignFile.elaborate_builtWithCare elaborated).built
  obtain ⟨again, analyzedAgain, declares⟩ := generate_declares built succeeds
  obtain rfl : hierarchy = again := Except.ok.inj (analyzed.symm.trans analyzedAgain)
  obtain ⟨netlist, member, declared⟩ := declares definition listed circuit
  have body := declared.custom _ (bodies netlist member)
  exact ⟨library, top, definition, elaborated, succeeds, listed, circuit, body, twice⟩

end SchematicHdl.Generation
