import SchematicHdl.Proofs.Generation.Records

/-! Sharing of definitions. Whatever a circuit instantiates is written before the circuit itself,
and the circuits are written in the order of the hierarchy: a circuit that is found handled is
written already, because the circuits that are open come later in the hierarchy.
-/

namespace SchematicHdl.Generation

open Hdl (Architecture)
open Netlist (positions)
open SchematicHdl.Outcome

-----------------------------------------------------------------------------------------
-- Emitting what the parts need
-----------------------------------------------------------------------------------------

/-- What a stretch of a run does: it visits circuits, and it writes more definitions. -/
structure Advances [Arithmetic] (library : Library) (hierarchy : Hierarchy) (options : Options)
    (opens : List Handled) (targets : List Nat) (run run' : Run) (done done' : List Netlist)
    : Prop where
  valid : Valid hierarchy options opens done' run'
  visits : Visits library.below targets (positions done) (positions done')
  grows : run.emitted ⊆ run'.emitted

/-- What forming the architecture of a circuit does: everything below the circuit is written. -/
def Completes [Arithmetic] (library : Library) (hierarchy : Hierarchy) (options : Options)
    (opens : List Handled) (netlist : Netlist) (body : Architecture) (run run' : Run)
    (done : List Netlist)
    : Prop :=
  ∃ done',
    Advances library hierarchy options opens (library.below netlist.circuit.position) run run'
      done done'
    ∧ Backed hierarchy options run'.emitted ⟨netlist.form options.clockMode, body⟩

theorem Advances.trans [Arithmetic] {library : Library} {hierarchy : Hierarchy} {options : Options}
    {opens : List Handled} {targets more : List Nat} {run middle run' : Run}
    {done between done' : List Netlist}
    (first : Advances library hierarchy options opens targets run middle done between)
    (second : Advances library hierarchy options opens more middle run' between done')
    : Advances library hierarchy options opens (targets ++ more) run run' done done' where
  valid := second.valid
  visits := first.visits.append second.visits
  grows := List.Subset.trans first.grows second.grows

theorem Supplied.mono {hierarchy : Hierarchy} {options : Options} {definitions more : List Emitted}
    {part : Part} (supplied : Supplied hierarchy options definitions part)
    (within : definitions ⊆ more)
    : Supplied hierarchy options more part := by
  obtain ⟨realization, resolved, definition, listed, same⟩ := supplied
  exact ⟨realization, resolved, definition, within listed, same⟩

variable {library : Library} {hierarchy : Hierarchy} {options : Options}

/-- A definition that is not a circuit is written when it is needed for the first time. -/
theorem emits_leaf [Arithmetic] {opens : List Handled} {done : List Netlist} {run run' : Run}
    (valid : Valid hierarchy options opens done run)
    (around
      : ∀ key ∈ opens, ∃ netlist : Netlist, key = (netlist.form options.clockMode).key)
    {netlist : Netlist} (member : netlist ∈ hierarchy.netlists) {part : Part}
    (held : part ∈ netlist.parts) {realization : Realization}
    (resolved
      : Realization.resolve hierarchy options.clockMode options.dialect part.component
        = .ok realization)
    (instantiated : realization.isInlined = false)
    (leaf : ∀ child, realization.definition ≠ .circuit child) {label : String}
    {architecture : Architecture}
    (emits : Emits options.dialect realization.form label (pure architecture) run run')
    : Advances library hierarchy options opens [] run run' done done
      ∧ ∃ definition ∈ run'.emitted, definition.key = realization.form.key := by
  have resolves := Realization.resolve_resolves resolved
  cases emits with
  | again found =>
      refine ⟨⟨valid, .nil, List.Subset.refl _⟩, ?_⟩
      refine (valid.written_or_open found).resolve_right fun waiting => ?_
      obtain ⟨other, same⟩ := around _ waiting
      exact resolves.origin_ne leaf other (congrArg Handled.origin same)
  | fresh new formed rendered =>
      obtain ⟨rfl, rfl⟩ := succeeds_pure.1 formed
      refine
        ⟨⟨?_, .nil, List.subset_append_left _ _⟩, _,
          List.mem_append_right _ List.mem_cons_self, rfl⟩
      exact
        (valid.opened new).closed (.leaf member held resolved instantiated leaf) rendered
          (by simp [resolves.isCircuit_eq leaf]) valid.within

section Parts

variable (sound : hierarchy.Sound library)
include sound

/-- A written definition with the key of a circuit is that of the circuit. -/
theorem mem_done_of_key [Arithmetic] {opens : List Handled} {done : List Netlist} {run : Run}
    (valid : Valid hierarchy options opens done run) {child : Netlist}
    (member : child ∈ hierarchy.netlists) {definition : Emitted}
    (listed : definition ∈ run.emitted)
    (same : definition.key = (child.form options.clockMode).key)
    : child ∈ done := by
  have origin : definition.form.origin = (child.form options.clockMode).origin :=
    congrArg Handled.origin same
  obtain ⟨before, after, split⟩ := List.append_of_mem listed
  have written : definition.form = child.form options.clockMode := by
    cases valid.linked.backed split with
    | leaf _ _ resolved _ leaf =>
        exact absurd origin ((Realization.resolve_resolves resolved).origin_ne leaf child)
    | circuit there => rw [sound.eq_of_origin there member origin]
  have among
      : child.form options.clockMode
        ∈ done.map (fun netlist => netlist.form options.clockMode) := by
    rw [← valid.circuits, ← written]
    refine List.mem_filter.mpr ⟨List.mem_map_of_mem listed, ?_⟩
    rw [written]
    rfl
  obtain ⟨found, inside, form_eq⟩ := List.mem_map.mp among
  rwa [← sound.eq_of_origin (valid.within inside) member (congrArg Form.origin form_eq)]

/-- A circuit that a circuit instantiates comes before it in the hierarchy. -/
theorem child_before (first : ChildrenFirst library.below (positions hierarchy.netlists))
    {before after : List Netlist} {netlist : Netlist}
    (split : hierarchy.netlists = before ++ netlist :: after) {part : Part}
    (held : part ∈ netlist.parts) {realization : Realization}
    (resolved
      : Realization.resolve hierarchy options.clockMode options.dialect part.component
        = .ok realization)
    {child : Netlist} (definition : realization.definition = .circuit child)
    : child ∈ before
      ∧ part.component.target? = some child.circuit.position
      ∧ realization.form = child.form options.clockMode := by
  have member : netlist ∈ hierarchy.netlists := by simp [split]
  obtain ⟨rfl, -, target, kind, there⟩ :=
    (Realization.resolve_resolves resolved).of_circuit definition
  obtain ⟨known, same⟩ := Netlist.ofCircuit?_mem there
  have target_eq : part.component.target? = some child.circuit.position := by
    simp [Component.target?, kind, same]
  refine ⟨?_, target_eq, rfl⟩
  have below : child.circuit.position ∈ library.below netlist.circuit.position := by
    rw [Library.below, ← (sound.netlists netlist member).circuit_eq, Circuit.targets,
      ← (sound.netlists netlist member).components_eq]
    exact List.mem_filterMap.mpr ⟨_, List.mem_map_of_mem held, target_eq⟩
  have earlier := first (positions before) netlist.circuit.position (positions after)
    (by simp [split, positions]) below
  obtain ⟨other, listed, position⟩ := List.mem_map.mp earlier
  have otherMember : other ∈ hierarchy.netlists := by simp [split, listed]
  rwa [← List.inj_on_of_nodup_map sound.distinct otherMember known position]

/-- A circuit is written when it is needed for the first time, after all that it needs itself. -/
theorem emits_circuit [Arithmetic] {opens : List Handled} {done : List Netlist} {run run' : Run}
    (valid : Valid hierarchy options opens done run) {child : Netlist}
    (member : child ∈ hierarchy.netlists)
    (closed : (child.form options.clockMode).key ∉ opens) {label : String}
    {architecture : RunM Architecture}
    (emits
      : Emits options.dialect (child.form options.clockMode) label architecture run run')
    (inner
      : ∀ body middle,
          Valid hierarchy options ((child.form options.clockMode).key :: opens) done
              (run.opened (child.form options.clockMode) label)
          → Succeeds architecture (run.opened (child.form options.clockMode) label) body middle
          → Completes library hierarchy options ((child.form options.clockMode).key :: opens) child
              body (run.opened (child.form options.clockMode) label) middle done)
    : ∃ done',
        Advances library hierarchy options opens [child.circuit.position] run run' done done'
        ∧ ∃ definition ∈ run'.emitted,
            definition.key = (child.form options.clockMode).key := by
  cases emits with
  | again found =>
      have written := (valid.written_or_open found).resolve_right closed
      obtain ⟨definition, listed, same⟩ := written
      have there := mem_done_of_key sound valid member listed same
      refine ⟨done, ⟨valid, ?_, List.Subset.refl _⟩, definition, listed, same⟩
      exact .skip (List.mem_map_of_mem there) .nil
  | fresh new formed rendered =>
      obtain ⟨done', advances, backed⟩ := inner _ _ (valid.opened new) formed
      have fresh : child.circuit.position ∉ positions done := by
        intro listed
        obtain ⟨other, inside, position⟩ := List.mem_map.mp listed
        obtain rfl :=
          List.inj_on_of_nodup_map sound.distinct (valid.within inside) member position
        exact valid.handled_of_done inside new
      refine
        ⟨done' ++ [child], ⟨?_, ?_, ?_⟩, _, List.mem_append_right _ List.mem_cons_self, rfl⟩
      · refine advances.valid.closed backed rendered ?_ ?_
        · simp [Netlist.isCircuit_form]
        · exact List.append_subset.mpr ⟨advances.valid.within, by simpa using member⟩
      · rw [Netlist.positions_append]
        exact .enter fresh advances.visits .nil
      · exact List.Subset.trans advances.grows (List.subset_append_left _ _)

end Parts

-----------------------------------------------------------------------------------------
-- Whole circuits
-----------------------------------------------------------------------------------------

theorem isPlaced_of_isInstantiated {part : Part} (placed : part.isInstantiated = true)
    : isPlaced part = true := by
  unfold Part.isInstantiated at placed
  unfold isPlaced
  cases category : part.category <;> simp_all

theorem isInlined_of_isInstantiated {part : Part} (placed : part.isInstantiated = true)
    : part.component.isInlined = false := by
  unfold Part.isInstantiated at placed
  cases category : part.category <;> simp_all

/-- What is emitted for one part, with what is known of the circuits that are entered for it. -/
theorem emitsPart_advances [Arithmetic] {library : Library} {hierarchy : Hierarchy}
    {options : Options} (sound : hierarchy.Sound library)
    (first : ChildrenFirst library.below (positions hierarchy.netlists))
    {before after : List Netlist} {netlist : Netlist}
    (split : hierarchy.netlists = before ++ netlist :: after) {opens : List Handled}
    (around
      : ∀ key ∈ opens, ∃ outer ∈ netlist :: after, key = (outer.form options.clockMode).key)
    {bound : Nat}
    (inner
      : ∀ child ∈ before,
          ∀ position < bound,
            ∀ {done : List Netlist} {run middle : Run} {body : Architecture},
              Valid hierarchy options ((child.form options.clockMode).key :: opens) done run
              → Succeeds (circuitArchitecture hierarchy options position child) run body middle
              → Completes library hierarchy options
                  ((child.form options.clockMode).key :: opens) child body run middle done)
    {part : Part} (held : part ∈ netlist.parts) {done : List Netlist} {run run' : Run}
    (valid : Valid hierarchy options opens done run)
    (emits : EmitsPart hierarchy options bound part run run')
    : ∃ done',
        Advances library hierarchy options opens part.component.target?.toList run run' done done'
        ∧ (part.isInstantiated = true → Supplied hierarchy options run'.emitted part) := by
  have member : netlist ∈ hierarchy.netlists := by simp [split]
  have stay (other : part.component.category ≠ .subcircuit)
      : Advances library hierarchy options opens part.component.target?.toList run run done
          done := by
    rw [Component.target?_eq_none other]
    exact ⟨valid, .nil, List.Subset.refl _⟩
  cases emits with
  | unplaced unplaced =>
      refine ⟨done, stay fun category => ?_, fun placed => ?_⟩
      · simp [isPlaced, Part.category, category] at unplaced
      · rw [isPlaced_of_isInstantiated placed] at unplaced
        cases unplaced
  | inlined resolved inlined =>
      have resolves := Realization.resolve_resolves resolved
      refine ⟨done, stay fun category => ?_, fun placed => ?_⟩
      · rw [resolves.category_eq] at category
        unfold Realization.isInlined at inlined
        split at inlined <;> simp_all
      · rw [resolves.isInlined_eq, isInlined_of_isInstantiated placed] at inlined
        cases inlined
  | leaf resolved instantiated leaf emits =>
      have resolves := Realization.resolve_resolves resolved
      obtain ⟨advances, definition, listed, same⟩ :=
        emits_leaf valid (fun key open_ => (around key open_).imp fun _ known => known.2) member
          held resolved instantiated leaf emits
      refine ⟨done, ?_, fun _ => ⟨_, resolved, definition, listed, same⟩⟩
      rw [Component.target?_eq_none (resolves.category_ne leaf)]
      exact advances
  | @circuit realization child position _ resolved definition lower emits =>
      obtain ⟨earlier, target_eq, form_eq⟩ :=
        child_before sound first split held resolved definition
      rw [form_eq] at emits
      have childMember : child ∈ hierarchy.netlists := split ▸ List.mem_append_left _ earlier
      have closed : (child.form options.clockMode).key ∉ opens := fun waiting => by
        obtain ⟨outer, later, same⟩ := around _ waiting
        have outerMember : outer ∈ hierarchy.netlists := split ▸ List.mem_append_right _ later
        have distinct := sound.distinct.of_map
        rw [split] at distinct
        refine List.disjoint_of_nodup_append distinct earlier ?_
        have origin
            : (child.form options.clockMode).origin = (outer.form options.clockMode).origin :=
          congrArg Handled.origin same
        rwa [sound.eq_of_origin childMember outerMember origin]
      obtain ⟨done', advances, written, listed, same⟩ :=
        emits_circuit sound valid childMember closed emits fun _ _ opened formed =>
          inner child earlier position lower opened formed
      refine ⟨done', ?_, fun _ => ⟨_, resolved, written, listed, form_eq ▸ same⟩⟩
      rw [target_eq]
      exact advances

/-- What is emitted for all parts, one after the other, by induction on the parts. -/
theorem emitsParts_advances [Arithmetic] {library : Library} {hierarchy : Hierarchy}
    {options : Options}
    {opens : List Handled} {bound : Nat} {parts : List Part} {done : List Netlist} {run run' : Run}
    (each
      : ∀ part ∈ parts,
          ∀ {done : List Netlist} {run run' : Run},
            Valid hierarchy options opens done run
            → EmitsPart hierarchy options bound part run run'
            → ∃ done',
                Advances library hierarchy options opens part.component.target?.toList run run'
                  done done'
                ∧ (part.isInstantiated = true → Supplied hierarchy options run'.emitted part))
    (valid : Valid hierarchy options opens done run)
    (chained : Chained (EmitsPart hierarchy options bound) parts run run')
    : ∃ done',
        Advances library hierarchy options opens
          (parts.filterMap (fun part => part.component.target?)) run run' done done'
        ∧ ∀ part ∈ parts,
            part.isInstantiated = true → Supplied hierarchy options run'.emitted part := by
  induction chained generalizing done with
  | nil => exact ⟨done, ⟨valid, .nil, List.Subset.refl _⟩, by simp⟩
  | @cons part parts _ _ _ head _ ih =>
      obtain ⟨between, first, supplied⟩ := each part List.mem_cons_self valid head
      obtain ⟨done', second, others⟩ :=
        ih (fun part member => each part (List.mem_cons_of_mem _ member)) first.valid
      refine ⟨done', ?_, fun other member placed => ?_⟩
      · have both := first.trans second
        rw [List.filterMap_cons]
        split <;> simp_all
      · rcases List.mem_cons.mp member with rfl | later
        · exact (supplied placed).mono second.grows
        · exact others other later placed

/-- While a child is open, all that is open are the child and circuits after it. -/
theorem around_child {mode : ClockMode} {outside between after : List Netlist}
    {netlist child : Netlist} {opens : List Handled}
    (around : ∀ key ∈ opens, ∃ outer ∈ netlist :: after, key = (outer.form mode).key)
    (split : hierarchy.netlists = (outside ++ child :: between) ++ netlist :: after)
    : hierarchy.netlists = outside ++ child :: (between ++ netlist :: after)
      ∧ ∀ key ∈ (child.form mode).key :: opens,
          ∃ outer ∈ child :: (between ++ netlist :: after), key = (outer.form mode).key := by
  refine ⟨by simp [split], fun key waiting => ?_⟩
  rcases List.mem_cons.mp waiting with rfl | open_
  · exact ⟨child, List.mem_cons_self, rfl⟩
  · obtain ⟨outer, later, key_eq⟩ := around key open_
    exact ⟨outer, List.mem_cons_of_mem _ (List.mem_append_right _ later), key_eq⟩

/-- The architecture of a circuit is formed after everything below the circuit is written, by
induction on the bound on the circuits that are entered.
-/
theorem circuitArchitecture_advances [Arithmetic] {library : Library} {hierarchy : Hierarchy}
    {options : Options} (sound : hierarchy.Sound library)
    (first : ChildrenFirst library.below (positions hierarchy.netlists)) {bound : Nat}
    {before after : List Netlist} {netlist : Netlist}
    (split : hierarchy.netlists = before ++ netlist :: after) {opens : List Handled}
    (around
      : ∀ key ∈ opens, ∃ outer ∈ netlist :: after, key = (outer.form options.clockMode).key)
    {done : List Netlist} {run run' : Run} {body : Architecture}
    (valid : Valid hierarchy options opens done run)
    (formed : Succeeds (circuitArchitecture hierarchy options bound netlist) run body run')
    : Completes library hierarchy options opens netlist body run run' done := by
  induction bound using Nat.strongRecOn
    generalizing before after netlist opens done run run' body with
  | ind bound ih =>
      have member : netlist ∈ hierarchy.netlists := by simp [split]
      obtain ⟨middle, chained, ends⟩ := circuitArchitecture_emits formed
      have same := (Run.SameRecords.labelCounts middle []).trans ends.sameRecords
      -- A circuit that is entered lies before all that are open, itself included.
      have inner (child : Netlist) (earlier : child ∈ before) (position : Nat)
          (lower : position < bound) {done : List Netlist} {run middle : Run} {body : Architecture}
          (opened
            : Valid hierarchy options ((child.form options.clockMode).key :: opens) done run)
          (formed
            : Succeeds (circuitArchitecture hierarchy options position child) run body middle)
          : Completes library hierarchy options ((child.form options.clockMode).key :: opens) child
              body run middle done := by
        obtain ⟨outside, between, rfl⟩ := List.append_of_mem earlier
        obtain ⟨childSplit, aroundChild⟩ := around_child around split
        exact ih position lower childSplit aroundChild opened formed
      obtain ⟨done', advances, supplied⟩ :=
        emitsParts_advances
          (fun part held => emitsPart_advances sound first split around inner held) valid chained
      have targets
          : netlist.parts.filterMap (fun part => part.component.target?)
            = library.below netlist.circuit.position := by
        have known := sound.netlists netlist member
        rw [Library.below, ← known.circuit_eq, Circuit.targets, ← known.components_eq,
          List.filterMap_map]
        rfl
      rw [targets] at advances
      refine ⟨done', ⟨advances.valid.congr same, advances.visits, ?_⟩, ?_⟩
      · rw [same.emitted]
        exact advances.grows
      · rw [same.emitted]
        exact .circuit member ends supplied

/-- What a circuit needs for some of its parts keeps the run valid. -/
theorem emitParts_valid [Arithmetic] {library : Library} {hierarchy : Hierarchy} {options : Options}
    (sound : hierarchy.Sound library)
    (first : ChildrenFirst library.below (positions hierarchy.netlists)) {bound : Nat}
    {before after : List Netlist} {netlist : Netlist}
    (split : hierarchy.netlists = before ++ netlist :: after) {opens : List Handled}
    (around
      : ∀ key ∈ opens, ∃ outer ∈ netlist :: after, key = (outer.form options.clockMode).key)
    {parts : List Part} (held : parts ⊆ netlist.parts) {done : List Netlist} {run run' : Run}
    {result : PUnit} (valid : Valid hierarchy options opens done run)
    (emitted : Succeeds (parts.forM (emitPart hierarchy options bound)) run result run')
    : ∃ done', Valid hierarchy options opens done' run' := by
  have inner (child : Netlist) (earlier : child ∈ before) (position : Nat) (_ : position < bound)
      {done : List Netlist} {run middle : Run} {body : Architecture}
      (opened : Valid hierarchy options ((child.form options.clockMode).key :: opens) done run)
      (formed : Succeeds (circuitArchitecture hierarchy options position child) run body middle)
      : Completes library hierarchy options ((child.form options.clockMode).key :: opens) child
          body run middle done := by
    obtain ⟨outside, between, rfl⟩ := List.append_of_mem earlier
    obtain ⟨childSplit, aroundChild⟩ := around_child around split
    exact circuitArchitecture_advances sound first childSplit aroundChild opened formed
  have chained := (forM_succeeds.1 emitted).imp fun _ _ _ step => emitPart_emits step
  obtain ⟨done', advances, -⟩ :=
    emitsParts_advances
      (fun part member => emitsPart_advances sound first split around inner (held member)) valid
      chained
  exact ⟨done', advances.valid⟩

end SchematicHdl.Generation
