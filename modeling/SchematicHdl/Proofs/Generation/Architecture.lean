import SchematicHdl.Proofs.Generation.Parts
import SchematicHdl.Proofs.Hierarchy.Bubbles

/-! The structural architecture of a circuit. It uses the ports of the circuit and the signals that
it declares, and all of them as they are declared if the bubble busses hold the ranges of the parts;
each part that is neither a pin nor a clock source nor inlined becomes one instance; and all its
names are different, whatever their letter case.
-/

namespace SchematicHdl.Generation

open Hdl (Architecture DesignUnit Instance NameUse PortDecl Scope SignalDecl Statement)
open SchematicHdl.Outcome

-----------------------------------------------------------------------------------------
-- Statements of all sections
-----------------------------------------------------------------------------------------

theorem intercalate_cons_cons {α : Type} {separator first second : List α} {rest : List (List α)}
    : separator.intercalate (first :: second :: rest)
      = first ++ (separator ++ separator.intercalate (second :: rest)) := by
  simp [List.intercalate]

/-- What a separator holds none of is found between the separators, by induction on the blocks. -/
theorem flatMap_intercalate {α β : Type} {f : α → List β} {separator : List α}
    (none : separator.flatMap f = []) (blocks : List (List α))
    : (separator.intercalate blocks).flatMap f = blocks.flatMap (List.flatMap f) := by
  induction blocks with
  | nil => rfl
  | cons block rest ih =>
      cases rest with
      | nil => simp [List.intercalate]
      | cons next others =>
          rw [intercalate_cons_cons, List.flatMap_append, List.flatMap_append, none, ih,
            List.nil_append, List.flatMap_cons (x := block)]

theorem mem_intercalate {α : Type} {separator : List α} {blocks : List (List α)} {x : α}
    (member : x ∈ separator.intercalate blocks)
    : x ∈ separator ∨ ∃ block ∈ blocks, x ∈ block := by
  induction blocks with
  | nil => cases member
  | cons block rest ih =>
      cases rest with
      | nil => exact .inr ⟨block, List.mem_cons_self, by simpa [List.intercalate] using member⟩
      | cons next others =>
          rw [intercalate_cons_cons] at member
          rcases List.mem_append.mp member with here | later
          · exact .inr ⟨block, List.mem_cons_self, here⟩
          · rcases List.mem_append.mp later with between | after
            · exact .inl between
            · refine (ih after).imp_right fun ⟨found, listed, inside⟩ => ?_
              exact ⟨found, List.mem_cons_of_mem _ listed, inside⟩

namespace Sections

/-- What blank lines and titles have none of is found in the sections, in their order. -/
theorem flatMap_statements {α : Type} {f : Statement → List α} (blank : f .blank = [])
    (remark : ∀ lines, f (.remark lines) = []) (sections : Sections)
    : sections.statements.flatMap f
      = sections.titled.flatMap (fun titled => titled.2.flatMap f) := by
  simp only [statements]
  rw [flatMap_intercalate (by simp [blank]), List.flatMap_map]
  induction sections.titled with
  | nil => rfl
  | cons titled rest ih =>
      cases empty : titled.2.isEmpty with
      | true =>
          obtain none : titled.2 = [] := List.isEmpty_iff.mp empty
          rw [List.filter_cons_of_neg (by simp [empty]), ih, List.flatMap_cons, none]
          rfl
      | false =>
          rw [List.filter_cons_of_pos (by simp [empty]), List.flatMap_cons, List.flatMap_cons, ih,
            List.flatMap_cons, remark, List.nil_append]

/-- The instances of the sections, in their order. -/
theorem instances_statements (sections : Sections)
    : sections.statements.filterMap Statement.instance?
      = sections.titled.flatMap (fun titled => titled.2.filterMap Statement.instance?) := by
  simp only [List.filterMap_eq_flatMap_toList]
  exact flatMap_statements rfl (fun _ => rfl) sections

/-- Next to blank lines and titles, there are the statements of the sections. -/
theorem mem_statements {sections : Sections} {statement : Statement}
    (member : statement ∈ sections.statements)
    : statement = .blank
      ∨ (∃ lines, statement = .remark lines)
      ∨ ∃ titled ∈ sections.titled, statement ∈ titled.2 := by
  rcases mem_intercalate member with between | ⟨block, listed, inside⟩
  · exact .inl (List.mem_singleton.mp between)
  · obtain ⟨titled, filled, rfl⟩ := List.mem_map.mp listed
    rcases List.mem_cons.mp inside with title | statement
    · exact .inr (.inl ⟨_, title⟩)
    · exact .inr (.inr ⟨titled, List.mem_of_mem_filter filled, statement⟩)

variable {fits : Prop} {scope : Scope} {normal subcircuits : List Instance} {sections : Sections}

theorem Extends.instances (extended : Sections.empty.Extends fits scope normal subcircuits sections)
    : sections.statements.filterMap Statement.instance? = normal ++ subcircuits := by
  rw [instances_statements]
  simp only [titled, List.flatMap_cons, List.flatMap_nil, extended.clocks.instances_eq,
    extended.wiring.instances_eq, extended.pins.instances_eq, extended.inlined.instances_eq,
    extended.normal.instances_eq, extended.subcircuits.instances_eq, List.nil_append,
    List.append_nil]

/-- Every statement is structural, given that the instances are. -/
theorem Extends.structural
    (extended : Sections.empty.Extends fits scope normal subcircuits sections)
    (each
      : ∀ inst ∈ normal ++ subcircuits, (Statement.instantiate inst).Structural fits scope)
    : ∀ statement ∈ sections.statements, statement.Structural fits scope := by
  intro statement member
  rcases mem_statements member with rfl | ⟨lines, rfl⟩ | ⟨titled, listed, inside⟩
  · exact .blank
  · exact .remark
  · simp only [Sections.titled, List.mem_cons, List.not_mem_nil, or_false] at listed
    rcases listed with rfl | rfl | rfl | rfl | rfl | rfl
    · exact extended.clocks.structural (by simp) _ inside
    · exact extended.wiring.structural (by simp) _ inside
    · exact extended.pins.structural (by simp) _ inside
    · exact extended.inlined.structural (by simp) _ inside
    · exact extended.normal.structural
        (fun inst member => each inst (List.mem_append_left _ member)) _ inside
    · exact extended.subcircuits.structural
        (fun inst member => each inst (List.mem_append_right _ member)) _ inside

end Sections

-----------------------------------------------------------------------------------------
-- The architecture that is formed
-----------------------------------------------------------------------------------------

/-- The signals of the root nets. -/
def netSignals (netlist : Netlist) : List SignalDecl :=
  netlist.nets.rootNets.map (fun net =>
    ⟨netlist.nets.nameAt net, .fixed (netlist.nets.widthAt net), .wire⟩)

/-- The signals of dangling wires. -/
def openSignals (openWires : List String) : List SignalDecl :=
  openWires.map (fun name => ⟨name, .fixed 1, .wire⟩)

/-- What is known of the architecture that is formed for a circuit. -/
structure Formed (hierarchy : Hierarchy) (options : Options) (netlist : Netlist)
    (openWires : List String) (architecture : Architecture)
    : Prop where
  signals_eq : architecture.signals = netSignals netlist ++ openSignals openWires
  structural
    : ∀ statement ∈ architecture.statements,
        statement.Structural netlist.BubblesHeld (netlist.scope options.clockMode openWires)
  /-- The instances are those of the instantiated parts, in some order. -/
  realizes
    : ∃ placed,
        placed.Perm (netlist.parts.filter Part.isInstantiated)
        ∧ List.Forall₂ (Realizes hierarchy options netlist openWires) placed
            (architecture.statements.filterMap Statement.instance?)
  distinct
    : (((netlist.form options.clockMode).ports.map Port.name
          ++ architecture.signals.map SignalDecl.name
          ++ (architecture.statements.filterMap Statement.instance?).map Instance.label).map
        Text.foldCase).Nodup

variable {hierarchy : Hierarchy} {options : Options} {netlist : Netlist}

/-- The unit of a formed architecture can use what the architecture declares, and its ports. -/
theorem Formed.scope_eq {openWires : List String} {architecture : Architecture}
    (formed : Formed hierarchy options netlist openWires architecture)
    : ((netlist.form options.clockMode).unit architecture).scope []
      = netlist.scope options.clockMode openWires := by
  have ports (ports : List Port) (within : ports ⊆ (netlist.form options.clockMode).ports)
      (direction : Direction)
      : (ports.map (fun port => port.declaration direction)).filterMap
          (fun declared => (declared.width.value? []).map (fun width => (declared.name, width)))
        = ports.map (fun port => (port.name, port.width)) := by
    rw [List.filterMap_map, ← List.filterMap_eq_map]
    refine List.filterMap_congr fun port member => ?_
    have declared := Netlist.form_plain port (within member)
    simp [Port.declaration, declared, Hdl.Width.value?]
  have signals
      : architecture.signals.filterMap
          (fun declared => (declared.width.value? []).map (fun width => (declared.name, width)))
        = netlist.nets.rootNets.map (fun net =>
            (netlist.nets.nameAt net, netlist.nets.widthAt net))
          ++ openWires.map (fun name => (name, 1)) := by
    simp [formed.signals_eq, netSignals, openSignals, List.filterMap_map, Hdl.Width.value?]
  have inputs := ports _ (List.subset_append_left _ _) .input
  have outputs :=
    ports _ (List.Subset.trans (List.subset_append_left _ _) (List.subset_append_right _ _)) .output
  have inouts :=
    ports _ (List.Subset.trans (List.subset_append_right _ _) (List.subset_append_right _ _)) .inout
  have driven := congrArg₂ (· ++ ·) (congrArg₂ (· ++ ·) inputs outputs) inouts
  have names := congrArg₂ (· ++ ·) driven signals
  simp only [DesignUnit.scope, DesignUnit.declarations, Form.unit, Netlist.scope, Scope.mk.injEq,
    and_true]
  rw [List.filterMap_append, List.filterMap_map, List.filterMap_map, List.filterMap_append,
    List.filterMap_append]
  refine Eq.trans names ?_
  simp [Form.ports, Form.drivingPorts]

theorem wiringStatement_assigns {library : Library} {netlists : List Netlist}
    (sound : netlist.Sound library netlists) {mode : ClockMode} {openWires : List String}
    : ∀ statement ∈ netlist.nets.wiring.map (wiringStatement netlist),
        statement.Assigns (netlist.scope mode openWires) := by
  intro statement member
  obtain ⟨run, listed, rfl⟩ := List.mem_map.mp member
  obtain ⟨target, source⟩ := sound.wiring_rooted listed
  exact ⟨_, _, _, rfl, Netlist.sliceExpr_hasWidth target, Netlist.sliceExpr_hasWidth source⟩

section Claimed

variable {draft draft' : Draft} {signals : List SignalDecl}

theorem claimPorts_claims {mode : ClockMode}
    (h : (claimPorts netlist mode).run draft = .ok ((), draft'))
    : Claims ((netlist.form mode).ports.map Port.name) draft draft'
      ∧ draft'.notes = draft.notes
      ∧ draft'.sections = draft.sections :=
  claims_of_forM h

theorem declareNets_claims (h : (declareNets netlist).run draft = .ok (signals, draft'))
    : Claims (signals.map SignalDecl.name) draft draft'
      ∧ draft'.notes = draft.notes
      ∧ draft'.sections = draft.sections
      ∧ signals = netSignals netlist :=
  claims_of_mapM (fun net => s!"net {netlist.nets.nameAt net}")
    (fun net => ⟨netlist.nets.nameAt net, .fixed (netlist.nets.widthAt net), .wire⟩) h

theorem declareOpenWires_claims
    (h : (declareOpenWires netlist).run draft = .ok (signals, draft'))
    : Claims (signals.map SignalDecl.name) draft draft'
      ∧ draft'.notes = draft.notes
      ∧ draft'.sections = draft.sections
      ∧ signals = openSignals draft.notes.openWires := by
  simp only [declareOpenWires, run_bind_eq_ok, run_get_eq_ok, Prod.mk.injEq] at h
  obtain ⟨_, _, ⟨rfl, rfl⟩, h⟩ := h
  exact claims_of_mapM (fun name => s!"open wire {name}") (fun name => ⟨name, .fixed 1, .wire⟩) h

end Claimed

theorem formed_of_sections {openWires : List String} {normal subcircuits : List Instance}
    {sections : Sections}
    (extended
      : Sections.empty.Extends netlist.BubblesHeld (netlist.scope options.clockMode openWires)
          normal subcircuits sections)
    (realizeNormal
      : List.Forall₂ (Realizes hierarchy options netlist openWires)
          ((netlist.parts.filter Part.isInstantiated).filter Part.isNormal) normal)
    (realizeSubcircuits
      : List.Forall₂ (Realizes hierarchy options netlist openWires)
          ((netlist.parts.filter Part.isInstantiated).filter (fun part => !part.isNormal))
          subcircuits)
    (distinct
      : (((netlist.form options.clockMode).ports.map Port.name
            ++ (netSignals netlist ++ openSignals openWires).map SignalDecl.name
            ++ (normal ++ subcircuits).map Instance.label).map
          Text.foldCase).Nodup)
    : Formed hierarchy options netlist openWires
        ⟨netSignals netlist ++ openSignals openWires, sections.statements⟩ := by
  have realizes := List.rel_append realizeNormal realizeSubcircuits
  have instances := extended.instances
  have perm := List.filter_append_perm Part.isNormal (netlist.parts.filter Part.isInstantiated)
  refine ⟨rfl, extended.structural fun inst member => ?_, ⟨_, perm, ?_⟩, ?_⟩
  · obtain ⟨part, chosen, realization, -, -, -, links⟩ := forall₂_mem_right realizes member
    have held := List.mem_of_mem_filter (perm.mem_iff.mp chosen)
    exact ((links (.raw "")).mono (fun inside => inside part held) (fun _ => id) rfl).structural
  · rw [instances]
    exact realizes
  · rw [instances]
    exact distinct

/-- A draft that starts with nothing ends with an architecture of this form. -/
theorem draftArchitecture_formed {library : Library} (sound : hierarchy.Sound library)
    (analyzed : netlist ∈ hierarchy.netlists) {labelCounts : List (String × Nat)} {draft : Draft}
    {architecture : Architecture}
    (h
      : (draftArchitecture hierarchy options netlist).run ⟨[], .empty, labelCounts, .empty⟩
        = .ok (architecture, draft))
    : ∃ openWires, Formed hierarchy options netlist openWires architecture := by
  simp only [draftArchitecture, run_bind_eq_ok, run_modify_eq_ok, run_get_eq_ok, run_pure_eq_ok,
    Prod.mk.injEq] at h
  obtain ⟨_, ported, ports, nets, netted, declared, _, placed, parts, _, wired, ⟨_, rfl⟩,
    openWires, _, opened, _, _, ⟨rfl, rfl⟩, rfl, rfl⟩ := h
  obtain ⟨portNames, portNotes, portSections⟩ := claimPorts_claims ports
  obtain ⟨netNames, netNotes, netSections, rfl⟩ := declareNets_claims declared
  obtain ⟨normal, subcircuits, adds, realizeNormal, realizeSubcircuits⟩ :=
    placeParts_adds sound analyzed (fun _ => id) parts
  obtain ⟨openNames, -, openSections, rfl⟩ := declareOpenWires_claims opened
  have nothing : netted.sections = .empty := netSections.trans portSections
  -- The wiring is set in one go, where there was none before.
  let sections :=
    { placed.sections with wiring := netlist.nets.wiring.map (wiringStatement netlist) }
  have extended
      : Sections.empty.Extends netlist.BubblesHeld
          (netlist.scope options.clockMode placed.notes.openWires) normal subcircuits sections :=
    {
      nothing ▸ adds.sections with
      wiring :=
        .assigns
          (Statement.assignsIf_of_assigns
            (wiringStatement_assigns (sound.netlists netlist analyzed)))
    }
  have wired : Claims [] placed { placed with sections } := .refl rfl
  have claims := (((portNames.trans netNames).trans adds.labels).trans wired).trans openNames
  rw [openSections]
  refine ⟨placed.notes.openWires, formed_of_sections extended realizeNormal realizeSubcircuits ?_⟩
  have distinct := claims.claimed.nodup_iff.mp (claims.distinct List.nodup_nil)
  have order (ports nets labels wires : List String)
      : (ports ++ nets ++ labels ++ [] ++ wires).Perm (ports ++ (nets ++ wires) ++ labels) := by
    simp only [List.append_nil, List.append_assoc]
    exact (List.perm_append_comm.append_left nets).append_left ports
  rw [List.map_append (f := SignalDecl.name)]
  exact ((order _ _ _ _).map _).nodup_iff.mp (List.nodup_append.mp distinct).1

/-- Warnings are issued one after the other, by induction on the warnings. -/
theorem warnings_run (messages : List String) (run : Run)
    : (messages.forM warn).run run
      = (.ok (), { run with warnings := run.warnings ++ messages.map run.located }) := by
  induction messages generalizing run with
  | nil => simp [ExceptT.run]; rfl
  | cons message messages ih =>
      show (warn message >>= fun _ => messages.forM warn).run run = _
      rw [run_keeping_bind]
      show (messages.forM warn).run
        { run with warnings := run.warnings ++ [run.located message] } = _
      rw [ih, List.append_assoc]
      rfl

theorem warnings_succeeds {messages : List String} {run run' : Run}
    (h : Succeeds (messages.forM warn) run () run')
    : run' = { run with warnings := run.warnings ++ messages.map run.located } :=
  (Prod.mk.inj (h.symm.trans (warnings_run messages run))).2

/-- Forming an architecture issues what its draft has noted. -/
theorem structuralArchitecture_succeeds {run run' : Run} {architecture : Architecture}
    (h : Succeeds (structuralArchitecture hierarchy options netlist) run architecture run')
    : ∃ draft,
        (draftArchitecture hierarchy options netlist).run ⟨[], .empty, run.labelCounts, .empty⟩
          = .ok (architecture, draft)
        ∧ run'
          = {
              run with
                labelCounts := draft.labelCounts,
                warnings := run.warnings ++ draft.notes.warnings.map run.located
            } := by
  simp only [structuralArchitecture, succeeds_bind, succeeds_get, succeeds_modify,
    succeeds_ofExcept, succeeds_pure] at h
  obtain ⟨_, _, ⟨rfl, rfl⟩, ⟨_, draft⟩, _, ⟨drafted, rfl⟩, _, _, rfl, _, _, warned, rfl, rfl⟩ := h
  exact ⟨draft, drafted, warnings_succeeds warned⟩

theorem structuralArchitecture_formed {library : Library} (sound : hierarchy.Sound library)
    (analyzed : netlist ∈ hierarchy.netlists) {run run' : Run} {architecture : Architecture}
    (succeeds
      : Succeeds (structuralArchitecture hierarchy options netlist) run architecture run')
    : ∃ openWires, Formed hierarchy options netlist openWires architecture := by
  obtain ⟨draft, formed, -⟩ := structuralArchitecture_succeeds succeeds
  exact draftArchitecture_formed sound analyzed formed

theorem portNames_unit (form : Form) (architecture : Architecture)
    : (form.unit architecture).ports.map PortDecl.name = form.ports.map Port.name := by
  simp [Form.unit, Form.ports, Form.drivingPorts, Port.declaration, Function.comp_def]

theorem Formed.wellScoped {openWires : List String} {architecture : Architecture}
    (formed : Formed hierarchy options netlist openWires architecture) (held : netlist.BubblesHeld)
    : ((netlist.form options.clockMode).unit architecture).WellScoped [] where
  declared := by
    rw [formed.scope_eq]
    exact fun statement member => (formed.structural statement member).declared held
  distinct := by
    rw [portNames_unit]
    exact formed.distinct

/-- A circuit with a clocked register and an unconnected output pin, and one that instantiates it.
-/
def registerSteps : List BuildStep :=
  [
    .circuit "Leaf",
    .wire 0 1,
    .wire 0 1,
    .wire 0 1,
    .pin 0 .input "d" 1,
    .pin 0 .output "q" 1,
    .clock 0 .empty,
    .primitive 0 .register .empty,
    .connect 0 0 0 ⟨0, 0⟩,
    .connect 0 3 1 ⟨0, 0⟩,
    .connect 0 3 0 ⟨0, 1⟩,
    .connect 0 2 0 ⟨0, 2⟩,
    .connect 0 3 2 ⟨0, 2⟩,
    .circuit "Main",
    .wire 1 1,
    .wire 1 1,
    .primitive 1 .not .empty,
    .subcircuit 1 ⟨0, 0, "Leaf"⟩,
    .connect 1 0 0 ⟨1, 0⟩,
    .connect 1 0 1 ⟨1, 1⟩,
    .connect 1 1 0 ⟨1, 0⟩
  ]

def registerOptions : Options := ⟨.vhdl, defaultOutputDirectory, .derived⟩

/-- The architecture of the first circuit below the top, formed at the start of a run. -/
def formedFirst? [Machine] (steps : List BuildStep) (top : CircuitRef) (options : Options)
    : Option (Hierarchy × Netlist × Architecture) := do
  let (_, library) ← ((steps.forM BuildStep.perform).run (.empty 0)).toOption
  let hierarchy ← (Hierarchy.analyze library top).toOption
  let netlist ← hierarchy.netlists.head?
  let architecture ←
    ((structuralArchitecture hierarchy options netlist).run .start).1.toOption
  return (hierarchy, netlist, architecture)

end SchematicHdl.Generation
