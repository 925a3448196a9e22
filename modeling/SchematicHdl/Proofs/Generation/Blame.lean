import SchematicHdl.Proofs.DesignFile.Contents
import SchematicHdl.Proofs.Generation.Claiming
import SchematicHdl.Proofs.Generation.Sharing
import SchematicHdl.Proofs.Hdl.Indentation
import SchematicHdl.Proofs.Hierarchy.Decision

/-! What a run can fail for. Names of one scope may be the same, and a component may have no
counterpart in the output language; nothing else goes wrong in an analyzed design, and every level
of the hierarchy that is entered is left again.
-/

namespace SchematicHdl.Generation

open Hdl (Architecture)
open Netlist (positions)
open SchematicHdl.Outcome

-----------------------------------------------------------------------------------------
-- Components
-----------------------------------------------------------------------------------------

/-- A placed component of an analyzed design is realized, or it cannot be expressed. -/
theorem resolve_refuses {library : Library} {hierarchy : Hierarchy} {netlist : Netlist}
    {part : Part} (holds : Netlist.Holds library hierarchy.netlists netlist part.component part)
    (placed : isPlaced part = true) (mode : ClockMode) (dialect : Dialect)
    : FailsBy (· = Realization.unsupported part.component dialect)
        (Realization.resolve hierarchy mode dialect part.component) := by
  have checked (realization : Realization)
      : FailsBy (· = Realization.unsupported part.component dialect)
          (if realization.supports dialect then pure realization
          else throw (Realization.unsupported part.component dialect)) := by
    split
    · exact failsBy_ok
    · exact failsBy_error rfl
  unfold isPlaced Part.category Component.category at placed
  unfold Realization.resolve
  cases kind : part.component.kind with
  | primitive type => exact checked _
  | external entity => exact checked _
  | subcircuit target =>
      obtain ⟨child, found, -⟩ := holds.subcircuit target kind
      simp only [Hierarchy.netlistOf_eq_ok.mpr found]
      exact checked _
  | unknown => exact failsBy_error rfl
  | pin | clock => simp [kind] at placed

/-- An architecture is formed unless two of its identifiers are the same or a component cannot be
expressed.
-/
theorem draftArchitecture_blames {library : Library} {hierarchy : Hierarchy} {options : Options}
    {netlist : Netlist} (sound : hierarchy.Sound library) (analyzed : netlist ∈ hierarchy.netlists)
    (counts : List (String × Nat))
    : FailsBy GenerationError.BlamesDesign
        ((draftArchitecture hierarchy options netlist).run ⟨[], .empty, counts, .empty⟩) := by
  intro cause failed
  obtain ⟨openWires, stops⟩ := (draftArchitecture_ends sound analyzed counts).failsBy cause failed
  cases stops with
  | component held placed refused =>
      obtain rfl := resolve_refuses (sound.part analyzed held).1 placed _ _ cause refused
      exact nofun
  | names clash =>
      cases clash
      exact nofun

-----------------------------------------------------------------------------------------
-- Steps of a run
-----------------------------------------------------------------------------------------

/-- The step returns to the levels that it starts on: with a good result, or failing for something
in the design.
-/
def Returns {α : Type} (good : α → Prop) (step : RunM α) : Prop :=
  ∀ levels run,
    run.levels = levels
    → Leads step run (fun result run' => good result ∧ run'.levels = levels)
        (fun error run' => error.BlamesDesign ∧ run'.levels = levels)

section Returns

variable {α β : Type} {good : α → Prop}

theorem returns_pure {result : α} (here : good result) : Returns good (pure result) :=
  fun _ _ same => leads_pure ⟨here, same⟩

theorem returns_modify {f : Run → Run} (keeps : ∀ run, (f run).levels = run.levels)
    : Returns (fun _ => True) (modify f) :=
  fun _ run same => leads_modify ⟨trivial, (keeps run).trans same⟩

theorem returns_ofExcept {x : Except GenerationError α}
    (failing : FailsBy GenerationError.BlamesDesign x)
    : Returns (fun result => x = .ok result) (MonadExcept.ofExcept x) :=
  fun _ _ same => leads_ofExcept (fun _ ok => ⟨ok, same⟩) fun cause failed =>
    ⟨failing cause failed, same⟩

theorem returns_bind {known : α → Prop} {wanted : β → Prop} {step : RunM α} {next : α → RunM β}
    (first : Returns known step) (second : ∀ result, known result → Returns wanted (next result))
    : Returns wanted (step >>= next) := by
  intro levels run same
  exact leads_bind (first levels run same) fun result run' reached =>
    second result reached.1 levels run' reached.2

theorem returns_forM {step : α → RunM PUnit} {items : List α}
    (each : ∀ item ∈ items, Returns (fun _ => True) (step item))
    : Returns (fun _ => True) (items.forM step) := by
  intro levels run same
  refine (leads_forM (I := fun run => run.levels = levels) same ?_).imp
    (fun _ _ same => ⟨trivial, same⟩) fun _ _ failed => failed
  intro item member run same
  exact
    (each item member levels run same).imp (fun _ _ reached => reached.2) fun _ _ failed => failed

/-- A level is left again whether or not the action on it fails. -/
theorem returns_withLevel {label : String} {action : RunM α} (inner : Returns good action)
    : Returns good (withLevel label action) := by
  intro levels run same
  have reached :=
    inner (label :: levels) { run with levels := label :: run.levels } (by rw [← same])
  unfold Leads at reached ⊢
  cases ran : action.run { run with levels := label :: run.levels } with
  | mk outcome middle =>
      rw [ran] at reached
      cases outcome with
      | ok result =>
          rw [withLevel_run ran reached.2]
          exact ⟨reached.1, rfl⟩
      | error cause =>
          rw [withLevel_run ran reached.2]
          exact ⟨reached.1, rfl⟩

theorem returns_markHandled (dialect : Dialect) (key origin : String)
    : Returns (fun _ => True) (markHandled dialect key origin) := by
  intro levels run same
  unfold Leads
  rw [markHandled_run]
  split
  next ran =>
    split at ran
    · split at ran
      · cases ran; exact ⟨trivial, same⟩
      · cases ran
    · cases ran; exact ⟨trivial, same⟩
  next ran =>
    split at ran
    · split at ran
      · cases ran
      · cases ran; exact ⟨nofun, same⟩
    · cases ran

theorem returns_get : Returns (fun _ => True) (get : RunM Run) :=
  fun _ _ same => leads_get ⟨trivial, same⟩

theorem returns_warn (message : String) : Returns (fun _ => True) (warn message) :=
  returns_modify fun _ => rfl

end Returns

-----------------------------------------------------------------------------------------
-- Definitions
-----------------------------------------------------------------------------------------

/-- The architecture can be written. -/
abbrev Writable (architecture : Architecture) : Prop := architecture.cause? = none

/-- A unit whose architecture can be written is written unless something in it is declared of no
bits.
-/
theorem cause_of_writable [Arithmetic] {unit : Hdl.DesignUnit}
    (writable : Writable unit.architecture)
    {cause : GenerationError} (found : unit.cause? = some cause)
    : cause = .overflow .subtract := by
  rcases unit.cause?_cases.1 cause found with ⟨statement, listed, unbound⟩ | ⟨rfl, -⟩
  · have none := List.findSome?_eq_none_iff.mp writable statement listed
    exact absurd unbound (Hdl.Statement.not_unbound_of_cause? none cause)
  · rfl

/-- A definition whose architecture can be written is emitted, unless something in it is declared of
no bits.
-/
theorem returns_emitDefinition [Arithmetic] {dialect : Dialect} {form : Form} {label : String}
    {architecture : RunM Architecture} (inner : Returns Writable architecture)
    : Returns (fun _ => True) (emitDefinition dialect form label architecture) := by
  refine returns_bind (returns_markHandled _ _ _) fun isNew _ => ?_
  split
  · refine returns_bind (returns_withLevel inner) fun body writable => ?_
    refine returns_bind (returns_ofExcept fun cause failed => ?_) fun text _ => ?_
    · have found := Hdl.DesignUnit.render_error? dialect (Emitted.mk form body).unit
      rw [failed] at found
      obtain rfl := cause_of_writable writable found.symm
      exact nofun
    · exact returns_bind (returns_modify fun _ => rfl) fun _ _ => returns_modify fun _ => rfl
  · exact returns_pure trivial

variable {library : Library} {hierarchy : Hierarchy} {options : Options} {netlist : Netlist}

theorem returns_structuralArchitecture (sound : hierarchy.Sound library)
    (analyzed : netlist ∈ hierarchy.netlists)
    : Returns Writable (structuralArchitecture hierarchy options netlist) := by
  refine returns_bind returns_get fun run _ => ?_
  refine returns_bind (returns_ofExcept (draftArchitecture_blames sound analyzed _)) ?_
  rintro ⟨architecture, draft⟩ drafted
  obtain ⟨openWires, formed⟩ := draftArchitecture_formed sound analyzed drafted
  refine returns_bind (returns_modify fun _ => rfl) fun _ _ => ?_
  refine returns_bind (returns_forM fun message _ => returns_warn message) fun _ _ => ?_
  exact returns_pure (Hdl.Architecture.cause?_eq_none formed.structural)

/-- A built-in architecture instantiates nothing, by cases on its type. -/
theorem writable_of_builtIn {type : Primitive} {attributes : Attributes}
    {architecture : Architecture}
    (definition
      : (Realization.ofPrimitive type attributes).definition = .builtIn architecture)
    : Writable architecture := by
  cases type with
  | multiplexer | priorityEncoder | register =>
      obtain rfl := Definition.builtIn.inj definition
      rfl
  | demultiplexer | decoder =>
      obtain rfl := Definition.builtIn.inj definition
      refine List.findSome?_eq_none_iff.mpr fun statement member => ?_
      obtain ⟨i, -, rfl⟩ := List.mem_map.mp member
      rfl
  | and | or | xor | nand | nor | xnor | not | constant => cases definition

/-- The position of a netlist is the number of netlists before it. -/
theorem positionOf?_eq (sound : hierarchy.Sound library) {before after : List Netlist}
    (split : hierarchy.netlists = before ++ netlist :: after)
    : positionOf? hierarchy netlist = some before.length := by
  have distinct := sound.distinct
  rw [split, positions, List.map_append, List.map_cons] at distinct
  unfold positionOf?
  rw [split, List.findIdx?_append]
  have none
      : before.findIdx? (fun candidate => candidate.circuit.position = netlist.circuit.position)
        = none := by
    refine List.findIdx?_eq_none_iff.mpr fun candidate member => ?_
    have apart := (List.nodup_append.mp distinct).2.2 _ (List.mem_map_of_mem member) _
      List.mem_cons_self
    simpa using apart
  rw [none, List.findIdx?_cons]
  simp

/-- What is emitted for an instantiated part: a definition whose architecture is at hand, or a
circuit from among those before the circuit around it.
-/
inductive Supplies [Arithmetic] (hierarchy : Hierarchy) (options : Options) (before : List Netlist)
    (part : Part) (realization : Realization)
    : RunM Unit → Prop
  | leaf {body} (leaf : ∀ child, realization.definition ≠ .circuit child)
    (writable : Writable body)
    : Supplies hierarchy options before part realization
        (emitDefinition options.dialect realization.form (levelLabel part.component) (pure body))
  | circuit {child outside between} (definition : realization.definition = .circuit child)
    (split : before = outside ++ child :: between)
    (listed : positionOf? hierarchy child = some outside.length)
    : Supplies hierarchy options before part realization
        (emitDefinition options.dialect realization.form (levelLabel part.component)
          (circuitArchitecture hierarchy options outside.length child))

section Emitting

variable {bound : Nat} {part : Part}

theorem emitPart_of_unplaced [Arithmetic] (unplaced : isPlaced part = false)
    : emitPart hierarchy options bound part = pure () :=
  if_neg (by simp [unplaced])

variable (placed : isPlaced part = true)
include placed

theorem emitPart_of_error [Arithmetic] {cause : GenerationError}
    (refused
      : Realization.resolve hierarchy options.clockMode options.dialect part.component
        = .error cause)
    : emitPart hierarchy options bound part = throw cause := by
  unfold emitPart
  rw [if_pos placed, refused]
  rfl

theorem emitPart_of_inlined [Arithmetic] {realization : Realization}
    (resolved
      : Realization.resolve hierarchy options.clockMode options.dialect part.component
        = .ok realization)
    (inlined : realization.isInlined = true)
    : emitPart hierarchy options bound part = pure () := by
  unfold Realization.isInlined at inlined
  unfold emitPart
  rw [if_pos placed, resolved, keeping_ofExcept_ok_bind]
  split at inlined
  next definition =>
    rw [definition]
  next => cases inlined

end Emitting

section Split

variable (sound : hierarchy.Sound library)
  (first : ChildrenFirst library.below (positions hierarchy.netlists)) {bound : Nat}
  {before after : List Netlist} (split : hierarchy.netlists = before ++ netlist :: after)
  (room : before.length ≤ bound)
include sound first split room

/-- There is room for every circuit that a part instantiates, by cases on its definition. -/
theorem emitPart_supplies [Arithmetic] {part : Part} (held : part ∈ netlist.parts)
    (placed : isPlaced part = true) {realization : Realization}
    (resolved
      : Realization.resolve hierarchy options.clockMode options.dialect part.component
        = .ok realization)
    (instantiated : realization.isInlined = false)
    : Supplies hierarchy options before part realization
        (emitPart hierarchy options bound part) := by
  unfold emitPart
  rw [if_pos placed, resolved, keeping_ofExcept_ok_bind]
  unfold Realization.isInlined at instantiated
  have resolves := Realization.resolve_resolves resolved
  cases definition : realization.definition with
  | inlined => simp [definition] at instantiated
  | builtIn body =>
      refine .leaf (fun child other => ?_) ?_
      · rw [definition] at other
        cases other
      · cases resolves with
        | primitive => exact writable_of_builtIn definition
        | subcircuit | external => cases definition
  | external entity =>
      refine .leaf (fun child other => ?_) rfl
      rw [definition] at other
      cases other
  | circuit child =>
      obtain ⟨earlier, -⟩ := child_before sound first split held resolved definition
      obtain ⟨outside, between, rfl⟩ := List.append_of_mem earlier
      have childSplit
          : hierarchy.netlists = outside ++ child :: (between ++ netlist :: after) := by
        simp [split]
      have listed := positionOf?_eq sound childSplit
      have lower : outside.length < bound := by
        simp at room
        omega
      dsimp only
      rw [listed]
      dsimp only
      rw [dif_pos lower]
      exact .circuit definition rfl listed

/-- What a part needs is emitted, given that the circuits before its own can be. -/
theorem returns_emitPart [Arithmetic] {part : Part} (held : part ∈ netlist.parts)
    (inner
      : ∀ child outside between,
          before = outside ++ child :: between
          → Returns Writable (circuitArchitecture hierarchy options outside.length child))
    : Returns (fun _ => True) (emitPart hierarchy options bound part) := by
  have analyzed : netlist ∈ hierarchy.netlists := by simp [split]
  cases placed : isPlaced part with
  | false =>
      rw [emitPart_of_unplaced placed]
      exact returns_pure trivial
  | true =>
      cases resolved
          : Realization.resolve hierarchy options.clockMode options.dialect part.component with
      | error cause =>
          obtain rfl := resolve_refuses (sound.part analyzed held).1 placed _ _ cause resolved
          rw [emitPart_of_error placed resolved]
          exact fun _ _ same => leads_throw ⟨nofun, same⟩
      | ok realization =>
          cases inlined : realization.isInlined with
          | true =>
              rw [emitPart_of_inlined placed resolved inlined]
              exact returns_pure trivial
          | false =>
              have supplies :=
                emitPart_supplies sound first split room held placed resolved inlined
              generalize emitPart hierarchy options bound part = emitted at supplies ⊢
              cases supplies with
              | leaf _ writable => exact returns_emitDefinition (returns_pure writable)
              | circuit _ childSplit => exact returns_emitDefinition (inner _ _ _ childSplit)

end Split

/-- The architecture of a circuit can be written, by induction on the bound on the circuits that are
entered.
-/
theorem returns_circuitArchitecture [Arithmetic] (sound : hierarchy.Sound library)
    (first : ChildrenFirst library.below (positions hierarchy.netlists)) {bound : Nat}
    {before after : List Netlist} (split : hierarchy.netlists = before ++ netlist :: after)
    (room : before.length ≤ bound)
    : Returns Writable (circuitArchitecture hierarchy options bound netlist) := by
  induction bound using Nat.strongRecOn generalizing before after netlist with
  | ind bound ih =>
      have analyzed : netlist ∈ hierarchy.netlists := by simp [split]
      rw [circuitArchitecture_eq]
      refine returns_bind (returns_forM fun part held => ?_) fun _ _ => ?_
      · refine returns_emitPart sound first split room held fun child outside between earlier => ?_
        have childSplit
            : hierarchy.netlists = outside ++ child :: (between ++ netlist :: after) := by
          simp [split, earlier]
        have lower : outside.length < bound := by
          simp [earlier] at room
          omega
        exact ih outside.length lower childSplit (Nat.le_refl _)
      · refine returns_bind (returns_modify fun _ => rfl) fun _ _ => ?_
        split
        · exact returns_pure rfl
        · exact returns_structuralArchitecture sound analyzed

-----------------------------------------------------------------------------------------
-- Whole runs
-----------------------------------------------------------------------------------------

theorem returns_emitTop [Arithmetic] (sound : hierarchy.Sound library)
    (first : ChildrenFirst library.below (positions hierarchy.netlists))
    (analyzed : netlist ∈ hierarchy.netlists)
    : Returns (fun _ => True) (emitTop hierarchy options netlist) := by
  refine returns_bind (returns_forM fun message _ => returns_warn message) fun _ _ => ?_
  split
  · obtain ⟨before, after, split⟩ := List.append_of_mem analyzed
    refine returns_emitDefinition (returns_circuitArchitecture sound first split ?_)
    simp [split]
  · exact fun _ _ same => leads_throw ⟨nofun, same⟩

/-- A run on a library that is closed under what it refers to fails for something in the design. -/
theorem returns_generateM [Machine] (grounded : Hierarchy.Grounded library) {top : CircuitRef}
    (known : library.Knows top) (options : Options)
    : Returns (fun _ => True) (generateM library top options) := by
  refine returns_bind (returns_ofExcept fun error failed => ?_) fun hierarchy analyzed => ?_
  · exact (Hierarchy.analyze_refused grounded known failed).blamesDesign
  have sound := Hierarchy.sound_of_analyze grounded.wellFormed analyzed
  have visits := (Hierarchy.analyze_visits grounded.wellFormed analyzed).2
  have reached : top.position ∈ positions hierarchy.netlists :=
    visits.targets_subset List.mem_cons_self
  obtain ⟨netlist, found⟩ := Option.isSome_iff_exists.mp (Netlist.ofCircuit?_isSome.mpr reached)
  rw [Hierarchy.netlistOf_eq_ok.mpr found]
  exact
    returns_emitTop sound (visits.childrenFirst (.nil _)) (Netlist.ofCircuit?_mem found).1

/-- What comes out of a design file is closed under what it refers to. -/
theorem grounded_of_elaborate [Arithmetic] {file : DesignFile} {top : CircuitRef}
    (elaborated : file.elaborate = .ok (library, top))
    : Hierarchy.Grounded library ∧ library.Knows top := by
  have built := (DesignFile.elaborate_builtWithCare elaborated).built
  have checked := DesignFile.checked_of_elaborate elaborated
  obtain ⟨rfl, rfl⟩ := DesignFile.elaborate_eq elaborated
  exact
    ⟨⟨built.wellFormed, built.wired, checked.refers⟩, DesignFile.library_knows checked.top⟩

/-- Whatever design file comes to a library, no invariant of the generator is broken: neither while
the design is analyzed nor while it is generated, in any language and clock mode.
-/
theorem generate_keepsInvariants [Machine] {file : DesignFile} {top : CircuitRef}
    (elaborated : file.elaborate = .ok (library, top))
    : (∀ fault, Hierarchy.analyze library top ≠ .error (.internal fault))
      ∧ ∀ options fault, (generate library top options).error ≠ some (.internal fault) := by
  obtain ⟨grounded, known⟩ := grounded_of_elaborate elaborated
  refine ⟨fun fault failed => ?_, fun options fault failed => ?_⟩
  · exact (Hierarchy.analyze_refused grounded known failed).blamesDesign fault rfl
  · have returns := returns_generateM grounded known options [] .start rfl
    unfold Leads at returns
    unfold generate at failed
    split at failed
    · cases failed
    next ran =>
      rw [show (generateM _ _ options).run .start = _ from ran] at returns
      exact returns.1 fault (Option.some.inj failed)

/-- A clocked register in a circuit with an unconnected pin, and an entity beside its instance. -/
def mixedFile : DesignFile where
  top := "main"
  circuits := [
    {
      name := "leaf",
      wires := [2, 2, 1],
      joins := [],
      splices := [],
      components := [
        ⟨"input_pin", some "d", .empty, [some (.wire 0)], none, none, some 2, none⟩,
        ⟨"output_pin", some "q", .empty, [some (.wire 1)], none, none, some 2, none⟩,
        ⟨"input_pin", some "spare", .empty, [none], none, none, some 3, none⟩,
        ⟨"clock", none, .empty, [some (.wire 2)], none, none, none, none⟩,
        ⟨"register", none, .ofList [("width", .number 2)],
          [some (.wire 1), some (.wire 0), some (.wire 2)], none, none, none, none⟩
      ],
      customBodies := []
    },
    {
      name := "main",
      wires := [2, 2],
      joins := [],
      splices := [],
      components := [
        ⟨"input_pin", some "a", .empty, [some (.wire 0)], none, none, some 2, none⟩,
        ⟨"circuit", none, .empty, [some (.wire 0), some (.wire 1)], some "leaf", none, none, none⟩,
        ⟨"entity", none, .empty, [some (.bits [some ⟨1, 0⟩, some ⟨0, 1⟩])], none, some "probe",
          none, none⟩
      ],
      customBodies := []
    }
  ]
  entities := [⟨"probe", .vhdl, [⟨"x", .input, 2⟩], "BEGIN"⟩]

/-- The design can be generated in the language of the entity; in the other one, a run fails for the
entity and for nothing else.
-/
theorem mixed_keepsInvariants
    : ∃ library top,
        mixedFile.elaborate = .ok (library, top)
        ∧ (generate library top ⟨.vhdl, defaultOutputDirectory, .globalTick⟩).error = none
        ∧ (generate library top ⟨.verilog, defaultOutputDirectory, .derived⟩).error
          = some (.unsupportedComponent "Entity \"probe\" #2" "no attributes" .verilog)
        ∧ (∀ fault, Hierarchy.analyze library top ≠ .error (.internal fault))
        ∧ ∀ options fault, (generate library top options).error ≠ some (.internal fault) := by
  have outcomes
      : mixedFile.elaborate.toOption.map (fun design =>
          ((generate design.1 design.2 ⟨.vhdl, defaultOutputDirectory, .globalTick⟩).error,
            (generate design.1 design.2 ⟨.verilog, defaultOutputDirectory, .derived⟩).error))
        = some
            (none,
              some (.unsupportedComponent "Entity \"probe\" #2" "no attributes" .verilog)) := by
    decide +kernel
  obtain ⟨⟨library, top⟩, found, same⟩ := Option.map_eq_some_iff.mp outcomes
  have elaborated := toOption_eq_some.mp found
  obtain ⟨vhdl, verilog⟩ := Prod.mk.inj same
  exact ⟨library, top, elaborated, vhdl, verilog, generate_keepsInvariants elaborated⟩

end SchematicHdl.Generation
