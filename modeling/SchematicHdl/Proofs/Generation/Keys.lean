import SchematicHdl.Proofs.Generation.Blame
import SchematicHdl.Proofs.Generation.Linking

/-! Keys of definitions. The name and the origin of a definition tell all of it, its body included,
so a definition that was emitted under a key serves every component with that key. A name that is
taken by another definition makes the run fail, and nothing is emitted in its place.
-/

namespace SchematicHdl

open Hdl (Architecture)

-----------------------------------------------------------------------------------------
-- Bodies
-----------------------------------------------------------------------------------------

namespace Selector

variable {a b : Attributes}

theorem disabledBit_eq (same : (floatingSuffix a).toList = (floatingSuffix b).toList)
    : disabledBit a = disabledBit b := by
  revert same
  unfold floatingSuffix disabledBit
  cases a.disabledPolicy <;> cases b.disabledPolicy <;> decide

/-- The two marks of a name tell what the outputs carry while nothing is selected. -/
theorem suffixes_inj
    (same
      : (tristateSuffix a).toList ++ (floatingSuffix a).toList
        = (tristateSuffix b).toList ++ (floatingSuffix b).toList)
    : disabledBit a = disabledBit b ∧ unselectedBit a = unselectedBit b := by
  revert same
  unfold tristateSuffix floatingSuffix disabledBit unselectedBit
  cases a.disabledPolicy <;> cases b.disabledPolicy <;> cases a.isTristate
    <;> cases b.isTristate <;> decide

/-- Multiplexers of one name have one body. -/
theorem multiplexerArchitecture_eq (same : (multiplexerForm a).name = (multiplexerForm b).name)
    : multiplexerArchitecture a = multiplexerArchitecture b := by
  have texts := congrArg String.toList same
  simp [multiplexerForm, form, toString] at texts
  obtain ⟨wide, select, floating⟩ :=
    busSuffix_inj (floatingSuffix_isSuffix a) (floatingSuffix_isSuffix b) texts
  have counts : count a = count b := congrArg (Nat.pow 2) select
  simp only [multiplexerArchitecture, filledData, dataWidth, counts, select, sized_eq_of_wide wide,
    disabledBit_eq floating]

/-- Demultiplexers of one name have one body. -/
theorem demultiplexerArchitecture_eq
    (same : (demultiplexerForm a).name = (demultiplexerForm b).name)
    : demultiplexerArchitecture a = demultiplexerArchitecture b := by
  have texts := congrArg String.toList same
  simp [demultiplexerForm, form, toString] at texts
  obtain ⟨wide, select, suffixes⟩ :=
    busSuffix_inj (suffixes_isSuffix a) (suffixes_isSuffix b) texts
  have counts : count a = count b := congrArg (Nat.pow 2) select
  obtain ⟨disabled, unselected⟩ := suffixes_inj suffixes
  simp only [demultiplexerArchitecture, filledData, selects, dataWidth, counts, select,
    sized_eq_of_wide wide, disabled, unselected]

/-- Decoders of one name have one body. -/
theorem decoderArchitecture_eq (same : (decoderForm a).name = (decoderForm b).name)
    : decoderArchitecture a = decoderArchitecture b := by
  have texts := congrArg String.toList same
  simp [decoderForm, form, toString] at texts
  have numbers := Text.digits_suffix_inj (suffixes_isSuffix a) (suffixes_isSuffix b) texts
  have select := selectBits_eq_of_count numbers.1
  obtain ⟨disabled, unselected⟩ := suffixes_inj numbers.2
  simp only [decoderArchitecture, selects, numbers.1, select, disabled, unselected]

/-- Priority encoders of one name have one body. -/
theorem priorityEncoderArchitecture_eq
    (same : (priorityEncoderForm a).name = (priorityEncoderForm b).name)
    : priorityEncoderArchitecture a = priorityEncoderArchitecture b := by
  have texts := congrArg String.toList same
  simp [priorityEncoderForm, form, toString] at texts
  have numbers :=
    Text.digits_suffix_inj (floatingSuffix_isSuffix a) (floatingSuffix_isSuffix b) texts
  have select := selectBits_eq_of_count numbers.1
  simp only [priorityEncoderArchitecture, numbers.1, select, disabledBit_eq numbers.2]

end Selector

/-- Registers of one name have one body. -/
theorem Register.architecture_eq {a b : Attributes} (same : (form a).name = (form b).name)
    : architecture a = architecture b := by
  simp only [architecture, dataWidth, sized_eq_of_wide (wide_of_name same)]

-----------------------------------------------------------------------------------------
-- Definitions of one key
-----------------------------------------------------------------------------------------

namespace Realization

/-- The two stand for one complete unit, for one entity or for one circuit. -/
inductive SameDefinition : Realization → Realization → Prop
  | builtIn {form other body another} (same : form.unit body = other.unit another)
    : SameDefinition ⟨form, .builtIn body⟩ ⟨other, .builtIn another⟩
  | external {form entity} : SameDefinition ⟨form, .external entity⟩ ⟨form, .external entity⟩
  | circuit {form netlist} : SameDefinition ⟨form, .circuit netlist⟩ ⟨form, .circuit netlist⟩

/-- Built-in components that share a name and an origin have one complete definition, whatever
attributes they have; by cases on their type.
-/
theorem ofPrimitive_sameDefinition {type other : Primitive} {a b : Attributes}
    (instantiated : (ofPrimitive type a).isInlined = false)
    (same : (ofPrimitive type a).form.key = (ofPrimitive other b).form.key)
    : SameDefinition (ofPrimitive type a) (ofPrimitive other b) := by
  have origin := congrArg Generation.Handled.origin same
  simp only [Form.key, ofPrimitive_origin] at origin
  obtain rfl := Primitive.eq_of_name origin
  have name := congrArg Generation.Handled.key same
  cases type with
  | multiplexer =>
      refine .builtIn ?_
      rw [Selector.multiplexerArchitecture_eq name]
      exact Selector.multiplexer_unit_eq name _
  | demultiplexer =>
      refine .builtIn ?_
      rw [Selector.demultiplexerArchitecture_eq name]
      exact Selector.demultiplexer_unit_eq name _
  | decoder =>
      refine .builtIn ?_
      rw [Selector.decoderArchitecture_eq name]
      exact Selector.decoder_unit_eq name _
  | priorityEncoder =>
      refine .builtIn ?_
      rw [Selector.priorityEncoderArchitecture_eq name]
      exact Selector.priorityEncoder_unit_eq name _
  | register =>
      refine .builtIn ?_
      rw [Register.architecture_eq name]
      exact Register.unit_eq name _
  | and | or | xor | nand | nor | xnor | not | constant => cases instantiated

/-- Components of a design whose definitions share a name and an origin have one definition. -/
theorem Resolves.sameDefinition {library : Library} {hierarchy : Hierarchy} {mode : ClockMode}
    {dialect : Dialect} {component other : Component} {realization another : Realization}
    (sound : hierarchy.Sound library) (owns : library.OwnsEntities)
    (owned : component.Owned library) (otherOwned : other.Owned library)
    (resolves : Resolves hierarchy mode dialect component realization)
    (otherResolves : Resolves hierarchy mode dialect other another)
    (instantiated : realization.isInlined = false)
    (same : realization.form.key = another.form.key)
    : SameDefinition realization another := by
  have origin : realization.form.origin = another.form.origin :=
    congrArg Generation.Handled.origin same
  cases resolves with
  | primitive =>
      cases otherResolves with
      | primitive => exact ofPrimitive_sameDefinition instantiated same
      | subcircuit =>
          rw [ofPrimitive_origin] at origin
          exact absurd origin.symm (Netlist.origin_ne_name _ _ _)
      | external =>
          rw [ofPrimitive_origin] at origin
          exact absurd origin.symm (ExternalEntity.origin_ne_name _ _)
  | subcircuit _ found =>
      cases otherResolves with
      | primitive =>
          rw [ofPrimitive_origin] at origin
          exact absurd origin (Netlist.origin_ne_name _ _ _)
      | subcircuit _ there =>
          rw [sound.eq_of_origin (Netlist.ofCircuit?_mem found).1 (Netlist.ofCircuit?_mem there).1
            origin]
          exact .circuit
      | external => exact absurd origin (Netlist.origin_ne_entity _ _ _)
  | external kind =>
      cases otherResolves with
      | primitive =>
          rw [ofPrimitive_origin] at origin
          exact absurd origin (ExternalEntity.origin_ne_name _ _)
      | subcircuit => exact absurd origin.symm (Netlist.origin_ne_entity _ _ _)
      | external otherKind =>
          have name := ExternalEntity.name_of_origin origin
          rw [owns.eq_of_name (owned _ kind) (otherOwned _ otherKind) name]
          exact .external

end Realization

end SchematicHdl

namespace SchematicHdl.Generation

open Hdl (Architecture)
open Netlist (positions)
open SchematicHdl.Outcome

-----------------------------------------------------------------------------------------
-- Keys that are taken
-----------------------------------------------------------------------------------------

/-- The failure of a definition whose key is taken by another one. -/
def collision (dialect : Dialect) (form : Form) (first : Handled) : GenerationError :=
  .identifierCollision form.name (dialect.displayName ++ " library") first.origin form.origin

variable {dialect : Dialect} {form : Form} {label : String} {architecture : RunM Architecture}
  {run : Run}

/-- A definition whose key is taken is refused, and nothing is changed. -/
theorem emitDefinition_collides [Arithmetic] {first : Handled}
    (taken : run.handled.lookup (Text.foldCase form.name) = some first)
    (differs : first ≠ form.key)
    : (emitDefinition dialect form label architecture).run run
      = (.error (collision dialect form first), run) := by
  have other : ¬first = ⟨form.name, form.origin⟩ := differs
  rw [emitDefinition, run_keeping_bind, markHandled_run, taken]
  dsimp only
  rw [if_neg other]
  rfl

/-- A definition whose architecture fails on its own level fails in the same way. -/
theorem emitDefinition_fails [Arithmetic] {cause : GenerationError} {middle : Run}
    (new : run.handled.lookup (Text.foldCase form.name) = none)
    (failed : architecture.run (run.opened form label) = (.error cause, middle))
    (levels : middle.levels = label :: run.levels)
    : (emitDefinition dialect form label architecture).run run
      = (.error cause, { middle with levels := run.levels }) := by
  rw [emitDefinition, run_keeping_bind, markHandled_run, new]
  dsimp only
  rw [if_pos rfl, run_keeping_bind, withLevel_run failed levels]

-----------------------------------------------------------------------------------------
-- Failing runs
-----------------------------------------------------------------------------------------

/-- While the architecture of a circuit is formed, a definition comes up in some state of the run:
for a part of the circuit itself, or inside the definition of such a part.
-/
inductive ComesTo [Arithmetic] (hierarchy : Hierarchy) (options : Options) (form : Form)
    (last : Run)
    : Nat → Netlist → Run → Prop
  | here {bound netlist run before part after realization}
    (split : netlist.parts = before ++ part :: after)
    (emitted : Succeeds (before.forM (emitPart hierarchy options bound)) run ⟨⟩ last)
    (placed : isPlaced part = true)
    (resolved
      : Realization.resolve hierarchy options.clockMode options.dialect part.component
        = .ok realization)
    (instantiated : realization.isInlined = false) (same : realization.form = form)
    : ComesTo hierarchy options form last bound netlist run
  | inside {bound netlist run before part after middle realization child position}
    (split : netlist.parts = before ++ part :: after)
    (emitted : Succeeds (before.forM (emitPart hierarchy options bound)) run ⟨⟩ middle)
    (placed : isPlaced part = true)
    (resolved
      : Realization.resolve hierarchy options.clockMode options.dialect part.component
        = .ok realization)
    (definition : realization.definition = .circuit child)
    (listed : positionOf? hierarchy child = some position)
    (new : middle.handled.lookup (Text.foldCase realization.form.name) = none)
    (inner
      : ComesTo hierarchy options form last position child
          (middle.opened realization.form (levelLabel part.component)))
    : ComesTo hierarchy options form last bound netlist run

variable {library : Library} {hierarchy : Hierarchy} {options : Options}

/-- What is emitted for an instance of a circuit is the definition of that circuit. -/
theorem Supplies.of_circuit [Arithmetic] {before : List Netlist} {part : Part}
    {realization : Realization}
    {step : RunM Unit} (supplies : Supplies hierarchy options before part realization step)
    {child : Netlist} {position : Nat} (definition : realization.definition = .circuit child)
    (listed : positionOf? hierarchy child = some position)
    : (∃ outside between, before = outside ++ child :: between ∧ outside.length = position)
      ∧ step
        = emitDefinition options.dialect realization.form (levelLabel part.component)
            (circuitArchitecture hierarchy options position child) := by
  cases supplies with
  | leaf leaf => exact absurd definition (leaf child)
  | @circuit _ outside between there split place =>
      obtain rfl : child = _ := Definition.circuit.inj (definition.symm.trans there)
      obtain rfl : position = outside.length := Option.some.inj (listed.symm.trans place)
      exact ⟨⟨outside, between, split, rfl⟩, rfl⟩

/-- While the architecture of a circuit is formed, the definition of an instantiated circuit is
opened.
-/
inductive Enters [Arithmetic] (hierarchy : Hierarchy) (options : Options) (bound : Nat)
    (netlist : Netlist)
    (run : Run) (position : Nat) (child : Netlist)
    : Run → Prop
  | opened {before part after middle realization} (split : netlist.parts = before ++ part :: after)
    (emitted : Succeeds (before.forM (emitPart hierarchy options bound)) run ⟨⟩ middle)
    (placed : isPlaced part = true)
    (resolved
      : Realization.resolve hierarchy options.clockMode options.dialect part.component
        = .ok realization)
    (definition : realization.definition = .circuit child)
    (listed : positionOf? hierarchy child = some position)
    (new : middle.handled.lookup (Text.foldCase realization.form.name) = none)
    : Enters hierarchy options bound netlist run position child
        (middle.opened realization.form (levelLabel part.component))

/-- What is entered is a circuit before the current one, which fails if the inner one does. -/
theorem Enters.fails [Arithmetic] (sound : hierarchy.Sound library)
    (childrenFirst : ChildrenFirst library.below (positions hierarchy.netlists))
    {bound position : Nat} {before after : List Netlist} {netlist child : Netlist} {opened : Run}
    (split : hierarchy.netlists = before ++ netlist :: after) (room : before.length ≤ bound)
    (enters : Enters hierarchy options bound netlist run position child opened)
    : ∃ outside between,
        hierarchy.netlists = outside ++ child :: (between ++ netlist :: after)
        ∧ position = outside.length
        ∧ ∀ cause final,
            (circuitArchitecture hierarchy options position child).run opened
              = (.error cause, final)
            → ∃ levels,
              (circuitArchitecture hierarchy options bound netlist).run run
              = (.error cause, { final with levels }) := by
  obtain @⟨earlier, part, later, middle, realization, parts, emitted, placed, resolved, definition,
    listed, new⟩ := enters
  have instantiated : realization.isInlined = false := by
    simp [Realization.isInlined, definition]
  have supplies :=
    emitPart_supplies sound childrenFirst split room (by simp [parts]) placed resolved instantiated
  obtain ⟨⟨outside, between, rfl, rfl⟩, emits⟩ := supplies.of_circuit definition listed
  have around : hierarchy.netlists = outside ++ child :: (between ++ netlist :: after) := by
    simp [split]
  refine ⟨outside, between, around, rfl, fun cause final failed => ⟨middle.levels, ?_⟩⟩
  have levels : final.levels = levelLabel part.component :: middle.levels :=
    (Leads.of_error
      (returns_circuitArchitecture sound childrenFirst around (Nat.le_refl _) _ _ rfl)
      failed).2
  have stopped
      : (emitPart hierarchy options bound part).run middle
        = (.error cause, { final with levels := middle.levels }) := by
    rw [emits]
    exact emitDefinition_fails new failed levels
  rw [circuitArchitecture_eq, run_keeping_bind, parts, forM_run_error emitted stopped]

/-- A definition that comes up while its key is taken makes the circuits around it fail, by
induction on how it comes up.
-/
theorem ComesTo.collides [Arithmetic] {last : Run} {first : Handled}
    (sound : hierarchy.Sound library)
    (childrenFirst : ChildrenFirst library.below (positions hierarchy.netlists)) {bound : Nat}
    {before after : List Netlist} {netlist : Netlist}
    (split : hierarchy.netlists = before ++ netlist :: after) (room : before.length ≤ bound)
    (comes : ComesTo hierarchy options form last bound netlist run)
    (taken : last.handled.lookup (Text.foldCase form.name) = some first)
    (differs : first ≠ form.key)
    : ∃ final,
        (circuitArchitecture hierarchy options bound netlist).run run
          = (.error (collision options.dialect form first), final)
        ∧ last.SameRecords final := by
  induction comes generalizing before after with
  | @here bound netlist run earlier part later realization parts emitted placed resolved
      instantiated same =>
      subst same
      refine ⟨last, ?_, .refl last⟩
      have supplies :=
        emitPart_supplies sound childrenFirst split room (by simp [parts]) placed resolved
          instantiated
      rw [circuitArchitecture_eq, run_keeping_bind, parts, forM_run_error emitted]
      generalize emitPart hierarchy options bound part = step at supplies
      cases supplies with
      | leaf | circuit => exact emitDefinition_collides taken differs
  | inside parts emitted placed resolved definition listed new _ ih =>
      have enters := Enters.opened parts emitted placed resolved definition listed new
      obtain ⟨outside, between, around, rfl, fails⟩ :=
        enters.fails sound childrenFirst split room
      obtain ⟨final, failed, same⟩ := ih around (Nat.le_refl _)
      obtain ⟨levels, stopped⟩ := fails _ _ failed
      exact ⟨_, stopped, same.handled, same.files, same.emitted⟩

/-- Where the netlist of the top circuit stands. -/
theorem top_split [Machine] {top : CircuitRef} (wellFormed : library.WellFormed)
    (analyzed : Hierarchy.analyze library top = .ok hierarchy) {netlist : Netlist}
    (found : hierarchy.netlistOf top = .ok netlist)
    : hierarchy.Sound library
      ∧ ChildrenFirst library.below (positions hierarchy.netlists)
      ∧ ∃ before after,
          hierarchy.netlists = before ++ netlist :: after
          ∧ before.length ≤ hierarchy.netlists.length := by
  have visits := (Hierarchy.analyze_visits wellFormed analyzed).2
  have member := (Netlist.ofCircuit?_mem (Hierarchy.netlistOf_eq_ok.mp found)).1
  obtain ⟨before, after, split⟩ := List.append_of_mem member
  exact
    ⟨Hierarchy.sound_of_analyze wellFormed analyzed, visits.childrenFirst (.nil _), before, after,
      split, by simp [split]⟩

/-- A run fails like the architecture of its top circuit. -/
theorem generateM_fails [Machine] {top : CircuitRef} (wellFormed : library.WellFormed)
    (analyzed : Hierarchy.analyze library top = .ok hierarchy) {netlist : Netlist}
    (found : hierarchy.netlistOf top = .ok netlist) (realizable : netlist.isRealizable = true)
    {cause : GenerationError} {final : Run}
    (failed
      : (circuitArchitecture hierarchy options hierarchy.netlists.length netlist).run
          (Run.opened { Run.start with warnings := hierarchy.warnings }
            (netlist.form options.clockMode) netlist.name)
        = (.error cause, final))
    : (generateM library top options).run .start = (.error cause, { final with levels := [] }) := by
  obtain ⟨sound, childrenFirst, before, after, split, room⟩ := top_split wellFormed analyzed found
  have levels : final.levels = [netlist.name] :=
    (Leads.of_error (returns_circuitArchitecture sound childrenFirst split room _ _ rfl) failed).2
  have warned
      : (hierarchy.warnings.forM warn).run .start
        = (.ok (), { Run.start with warnings := hierarchy.warnings }) := by
    rw [warnings_run, show Run.start.located = id from rfl, List.map_id]
    rfl
  have enters
      : (generateM library top options).run .start
        = (emitTop hierarchy options netlist).run .start := by
    rw [generateM, analyzed, run_keeping_bind]
    show (MonadExcept.ofExcept (hierarchy.netlistOf top) >>= _ : RunM Unit).run .start = _
    rw [found]
    rfl
  rw [enters]
  rw [emitTop, run_keeping_bind, warned]
  dsimp only
  rw [if_pos realizable, emitDefinition_fails rfl failed levels]
  rfl

/-- A definition comes up in a run, below the definition of the top circuit. -/
inductive Meets [Machine] (library : Library) (top : CircuitRef) (options : Options) (form : Form)
    (last : Run)
    : Prop
  | below {hierarchy : Hierarchy} {netlist : Netlist}
    (analyzed : Hierarchy.analyze library top = .ok hierarchy)
    (found : hierarchy.netlistOf top = .ok netlist) (realizable : netlist.isRealizable = true)
    (comes
      : ComesTo hierarchy options form last hierarchy.netlists.length netlist
          (Run.opened { Run.start with warnings := hierarchy.warnings }
            (netlist.form options.clockMode) netlist.name))

/-- A run in which a definition comes up while its key is taken fails for it, with nothing handled
or written since.
-/
theorem Meets.collides [Machine] {top : CircuitRef} {last : Run} {first : Handled}
    (wellFormed : library.WellFormed) (meets : Meets library top options form last)
    (taken : last.handled.lookup (Text.foldCase form.name) = some first)
    (differs : first ≠ form.key)
    : ∃ final,
        (generateM library top options).run .start
          = (.error (collision options.dialect form first), final)
        ∧ last.SameRecords final := by
  obtain @⟨hierarchy, netlist, analyzed, found, realizable, comes⟩ := meets
  obtain ⟨sound, childrenFirst, before, after, split, room⟩ := top_split wellFormed analyzed found
  obtain ⟨final, failed, same⟩ := comes.collides sound childrenFirst split room taken differs
  exact
    ⟨_, generateM_fails wellFormed analyzed found realizable failed, same.handled, same.files,
      same.emitted⟩

-----------------------------------------------------------------------------------------
-- Definitions of a design
-----------------------------------------------------------------------------------------

/-- Some component of the design is realized in this way, and not by assignments. -/
def Needs (hierarchy : Hierarchy) (options : Options) (realization : Realization) : Prop :=
  ∃ netlist ∈ hierarchy.netlists,
    ∃ part ∈ netlist.parts,
      Realization.resolve hierarchy options.clockMode options.dialect part.component
        = .ok realization
      ∧ realization.isInlined = false

/-- Components of a design that share a name and an origin share a definition. -/
theorem Needs.sameDefinition (sound : hierarchy.Sound library)
    (owns : library.OwnsEntities) {realization another : Realization}
    (needs : Needs hierarchy options realization)
    (other : Needs hierarchy options another)
    (same : realization.form.key = another.form.key)
    : realization.SameDefinition another := by
  obtain ⟨netlist, member, part, held, resolved, instantiated⟩ := needs
  obtain ⟨beside, there, neighbour, inside, realized, -⟩ := other
  exact
    Realization.Resolves.sameDefinition sound owns (component_owned sound owns member held)
      (component_owned sound owns there inside) (Realization.resolve_resolves resolved)
      (Realization.resolve_resolves realized) instantiated same

/-- A run that has written all circuits has written what they instantiate. -/
theorem Valid.writes [Arithmetic] (sound : hierarchy.Sound library) {opens : List Handled}
    (valid : Valid hierarchy options opens hierarchy.netlists run) {realization : Realization}
    (needs : Needs hierarchy options realization)
    : ∃ definition ∈ run.emitted, definition.key = realization.form.key := by
  obtain ⟨netlist, member, part, held, resolved, instantiated⟩ := needs
  have form : netlist.form options.clockMode ∈ run.emitted.map Emitted.form := by
    refine List.mem_of_mem_filter (p := Form.isCircuit) ?_
    rw [valid.circuits]
    exact List.mem_map_of_mem member
  obtain ⟨definition, listed, same⟩ := List.mem_map.mp form
  obtain ⟨earlier, later, split⟩ := List.append_of_mem listed
  have origin : definition.form.origin = (netlist.form options.clockMode).origin :=
    congrArg Form.origin same
  cases valid.linked.backed split with
  | leaf _ _ other _ leaf =>
      exact absurd origin ((Realization.resolve_resolves other).origin_ne leaf netlist)
  | circuit there _ supplied =>
      obtain rfl := sound.eq_of_origin there member origin
      have needed : part.isInstantiated = true := by
        have resolves := Realization.resolve_resolves resolved
        have plain := resolves.isInlined_eq ▸ instantiated
        unfold Part.isInstantiated Part.category
        rw [resolves.category_eq]
        cases realization.definition <;> simp [plain]
      obtain ⟨again, resolvedAgain, used, written, key⟩ := supplied part held needed
      obtain rfl : realization = again := Except.ok.inj (resolved.symm.trans resolvedAgain)
      exact ⟨used, split ▸ List.mem_append_left _ written, key⟩

/-- In a successful run, names of definitions are not even the same but for case, unless they are
names of one definition.
-/
theorem Valid.key_eq [Arithmetic] (sound : hierarchy.Sound library) {opens : List Handled}
    (valid : Valid hierarchy options opens hierarchy.netlists run)
    {realization another : Realization} (needs : Needs hierarchy options realization)
    (other : Needs hierarchy options another)
    (same : Text.foldCase realization.form.name = Text.foldCase another.form.name)
    : realization.form.key = another.form.key := by
  obtain ⟨definition, listed, key⟩ := valid.writes sound needs
  obtain ⟨beside, there, keyBeside⟩ := valid.writes sound other
  have folded : Text.foldCase definition.form.name = Text.foldCase beside.form.name := by
    have name : definition.form.name = realization.form.name := congrArg Handled.key key
    have nameBeside : beside.form.name = another.form.name := congrArg Handled.key keyBeside
    rw [name, nameBeside, same]
  rw [← key, ← keyBeside, List.inj_on_of_nodup_map valid.names_nodup listed there folded]

/-- Definitions are shared by those that they stand for and by nobody else. Built-in components of
one name and origin have one complete definition whatever their attributes are, and components of a
design that is built from a file have one entity or one circuit. A definition that comes up under a
name that belongs to another one makes the run fail, with nothing handled or written since, so no
such name is left in a successful run.
-/
theorem generate_sharesDefinitions [Machine] {file : DesignFile} {top : CircuitRef}
    (elaborated : file.elaborate = .ok (library, top)) (options : Options)
    : (∀ type other a b,
          (Realization.ofPrimitive type a).isInlined = false
          → (Realization.ofPrimitive type a).form.key = (Realization.ofPrimitive other b).form.key
          → (Realization.ofPrimitive type a).SameDefinition (.ofPrimitive other b))
      ∧ (∀ hierarchy realization another,
          Hierarchy.analyze library top = .ok hierarchy
          → Needs hierarchy options realization
          → Needs hierarchy options another
          → (realization.form.key = another.form.key → realization.SameDefinition another)
            ∧ ((generate library top options).error = none
              → Text.foldCase realization.form.name = Text.foldCase another.form.name
              → realization.SameDefinition another))
      ∧ ∀ form first last,
          Meets library top options form last
          → last.handled.lookup (Text.foldCase form.name) = some first
          → first ≠ form.key
          → ∃ final,
            (generateM library top options).run .start
              = (.error (collision options.dialect form first), final)
            ∧ last.SameRecords final := by
  have careful := DesignFile.elaborate_builtWithCare elaborated
  have wellFormed := careful.built.wellFormed
  refine ⟨fun type other a b => Realization.ofPrimitive_sameDefinition, ?_, ?_⟩
  · intro hierarchy realization another analyzed needs other
    have sound := Hierarchy.sound_of_analyze wellFormed analyzed
    refine ⟨needs.sameDefinition sound careful.ownsEntities other, fun succeeds same => ?_⟩
    obtain ⟨again, run, analyzedAgain, -, valid, -⟩ := generate_valid wellFormed succeeds
    obtain rfl : hierarchy = again := Except.ok.inj (analyzed.symm.trans analyzedAgain)
    exact
      needs.sameDefinition sound careful.ownsEntities other
        (valid.key_eq sound needs other same)
  · exact fun form first last meets => meets.collides wellFormed

/-- A circuit that instantiates a circuit whose name is its own in capital letters. -/
def capitalsFile : DesignFile where
  top := "Main"
  circuits := [
    {
      name := "MAIN",
      wires := [1],
      joins := [],
      splices := [],
      components := [⟨"input_pin", some "a", .empty, [some (.wire 0)], none, none, some 1, none⟩],
      customBodies := []
    },
    {
      name := "Main",
      wires := [1],
      joins := [],
      splices := [],
      components := [
        ⟨"circuit", none, .empty, [some (.wire 0)], some "MAIN", none, none, none⟩
      ],
      customBodies := []
    }
  ]
  entities := []

/-- Multiplexers of different widths share one definition, and circuits whose names are the same but
for case share none: nothing but the definition that came first is handled.
-/
theorem capitals_shareNothing
    : (Realization.ofPrimitive .multiplexer (.ofList [("width", .number 4)])).SameDefinition
          (.ofPrimitive .multiplexer (.ofList [("width", .number 8), ("enable", .flag true)]))
      ∧ ∃ library top final,
        capitalsFile.elaborate = .ok (library, top)
        ∧ (generateM library top registerOptions).run .start
          = (.error
              (.identifierCollision "MAIN" "VHDL library" "circuit \"Main\"" "circuit \"MAIN\""),
            final)
        ∧ final.handled = [("main", ⟨"Main", "circuit \"Main\""⟩)] := by
  have meeting
      : (do
          let design ← capitalsFile.elaborate.toOption
          let hierarchy ← (Hierarchy.analyze design.1 design.2).toOption
          let netlist ← (hierarchy.netlistOf design.2).toOption
          let part ← netlist.parts.head?
          let realization ←
            (Realization.resolve hierarchy .derived .vhdl part.component).toOption
          return (netlist.isRealizable, isPlaced part, realization.isInlined,
            realization.form.key, (netlist.form .derived).key))
        = some
            (true, true, false, ⟨"MAIN", "circuit \"MAIN\""⟩, ⟨"Main", "circuit \"Main\""⟩) := by
    decide +kernel
  simp only [bind, Option.bind_eq_some_iff, toOption_eq_some] at meeting
  obtain ⟨⟨library, top⟩, elaborated, hierarchy, analyzed, netlist, found, part, head, realization,
    resolved, values⟩ := meeting
  obtain ⟨realizable, placed, instantiated, key, first⟩ :
      netlist.isRealizable = true
      ∧ isPlaced part = true
      ∧ realization.isInlined = false
      ∧ realization.form.key = ⟨"MAIN", "circuit \"MAIN\""⟩
      ∧ (netlist.form .derived).key = ⟨"Main", "circuit \"Main\""⟩ := by
    simpa [pure] using values
  obtain ⟨tail, parts⟩ := List.head?_eq_some_iff.mp head
  have split : netlist.parts = [] ++ part :: tail := parts
  have meets
      : Meets library top registerOptions realization.form
          (Run.opened { Run.start with warnings := hierarchy.warnings } (netlist.form .derived)
            netlist.name) :=
    .below analyzed found realizable (.here split rfl placed resolved instantiated rfl)
  obtain ⟨same, -, collides⟩ := generate_sharesDefinitions elaborated registerOptions
  have name : realization.form.name = "MAIN" := congrArg Handled.key key
  have origin : realization.form.origin = "circuit \"MAIN\"" := congrArg Handled.origin key
  have handled
      : (Text.foldCase (netlist.form .derived).name, (netlist.form .derived).key)
        = ("main", ⟨"Main", "circuit \"Main\""⟩) := by
    rw [first, show (netlist.form .derived).name = "Main" from congrArg Handled.key first]
    decide
  have opened
      : (Run.opened { Run.start with warnings := hierarchy.warnings } (netlist.form .derived)
            netlist.name).handled
        = [("main", ⟨"Main", "circuit \"Main\""⟩)] := by
    rw [← handled]
    rfl
  obtain ⟨final, failed, records⟩ :=
    collides _ ⟨"Main", "circuit \"Main\""⟩ _ meets (by rw [opened, name]; decide)
      (by rw [key]; decide)
  refine ⟨same _ _ _ _ rfl (by decide), library, top, final, elaborated, ?_, ?_⟩
  · rw [failed, collision, name, origin]
    rfl
  · rw [records.handled, opened]

end SchematicHdl.Generation
