import SchematicHdl.Proofs.Generation.Emission

/-! Runs in which every handled definition is written or open. What is open is a circuit around the
current one, and whatever a written circuit instantiates was written before it.
-/

namespace SchematicHdl.Generation

open Hdl (Architecture)
open Netlist (positions)
open SchematicHdl.Outcome

/-- The file of a definition holds its text, at its path. -/
structure Written [Arithmetic] (dialect : Dialect) (definition : Emitted) (file : OutputFile)
    : Prop where
  path_eq : file.path = filePath dialect definition.form
  text_eq : definition.unit.render dialect = .ok file.text

/-- The definition of a part is among the given ones. -/
def Supplied (hierarchy : Hierarchy) (options : Options) (definitions : List Emitted) (part : Part)
    : Prop :=
  ∃ realization,
    Realization.resolve hierarchy options.clockMode options.dialect part.component
      = .ok realization
    ∧ ∃ definition ∈ definitions, definition.key = realization.form.key

/-- What a written definition is, with all that it instantiates written earlier. -/
inductive Backed (hierarchy : Hierarchy) (options : Options) (earlier : List Emitted)
    : Emitted → Prop
  | leaf {netlist part realization body} (member : netlist ∈ hierarchy.netlists)
    (held : part ∈ netlist.parts)
    (resolved
      : Realization.resolve hierarchy options.clockMode options.dialect part.component
        = .ok realization)
    (instantiated : realization.isInlined = false)
    (leaf : ∀ child, realization.definition ≠ .circuit child)
    : Backed hierarchy options earlier ⟨realization.form, body⟩
  | circuit {netlist body before after} (member : netlist ∈ hierarchy.netlists)
    (ends : Ends hierarchy options netlist before body after)
    (supplied
      : ∀ part ∈ netlist.parts,
          part.isInstantiated = true → Supplied hierarchy options earlier part)
    : Backed hierarchy options earlier ⟨netlist.form options.clockMode, body⟩

/-- Written definitions, each with those before it. -/
inductive Linked (hierarchy : Hierarchy) (options : Options) : List Emitted → Prop
  | nil : Linked hierarchy options []
  | snoc {earlier definition} (linked : Linked hierarchy options earlier)
    (backed : Backed hierarchy options earlier definition)
    : Linked hierarchy options (earlier ++ [definition])

/-- Every written definition is backed by those before it, by induction from the end. -/
theorem Linked.backed {hierarchy : Hierarchy} {options : Options} {definitions : List Emitted}
    (linked : Linked hierarchy options definitions) {before after : List Emitted}
    {definition : Emitted} (split : definitions = before ++ definition :: after)
    : Backed hierarchy options before definition := by
  induction linked generalizing after with
  | nil => simp at split
  | snoc _ backed ih =>
      rcases List.eq_nil_or_concat after with rfl | ⟨others, final, rfl⟩
      · obtain ⟨rfl, same⟩ := List.append_inj' split rfl
        obtain ⟨rfl, -⟩ := List.cons.inj same
        exact backed
      · rw [List.concat_eq_append, ← List.cons_append, ← List.append_assoc] at split
        exact ih (List.append_inj' split rfl).1

/-- A run in which some definitions are open and the given circuits are written. -/
structure Valid [Arithmetic] (hierarchy : Hierarchy) (options : Options) (opens : List Handled)
    (done : List Netlist) (run : Run)
    : Prop where
  folded : ∀ entry ∈ run.handled, entry.1 = Text.foldCase entry.2.key
  distinct : (run.handled.map Prod.fst).Nodup
  known : (run.handled.map Prod.snd).Perm (run.emitted.map Emitted.key ++ opens)
  files : List.Forall₂ (Written options.dialect) run.emitted run.files
  circuits
    : (run.emitted.map Emitted.form).filter Form.isCircuit
      = done.map (fun netlist => netlist.form options.clockMode)
  within : done ⊆ hierarchy.netlists
  linked : Linked hierarchy options run.emitted

namespace Valid

variable {hierarchy : Hierarchy} {options : Options} {opens : List Handled} {done : List Netlist}
  {run run' : Run}

theorem congr [Arithmetic] (valid : Valid hierarchy options opens done run)
    (same : run.SameRecords run')
    : Valid hierarchy options opens done run' := by
  obtain ⟨handled, files, emitted⟩ := same
  exact
    {
      folded := handled ▸ valid.folded,
      distinct := handled ▸ valid.distinct,
      known := handled ▸ emitted ▸ valid.known,
      files := files ▸ emitted ▸ valid.files,
      circuits := emitted ▸ valid.circuits,
      within := valid.within,
      linked := emitted ▸ valid.linked
    }

/-- What was handled before is written, unless it is open. -/
theorem written_or_open [Arithmetic] (valid : Valid hierarchy options opens done run) {form : Form}
    (found : run.handled.lookup (Text.foldCase form.name) = some form.key)
    : (∃ definition ∈ run.emitted, definition.key = form.key) ∨ form.key ∈ opens := by
  have listed := List.mem_map_of_mem (f := Prod.snd) (mem_of_lookup_eq_some found)
  rcases List.mem_append.mp (valid.known.mem_iff.mp listed) with written | waiting
  · exact .inl (List.mem_map.mp written)
  · exact .inr waiting

/-- The circuits that are written were handled before. -/
theorem handled_of_done [Arithmetic] (valid : Valid hierarchy options opens done run)
    {child : Netlist} (member : child ∈ done)
    : run.handled.lookup (Text.foldCase (child.form options.clockMode).name) ≠ none := by
  have among := List.mem_map_of_mem (f := fun netlist => netlist.form options.clockMode) member
  rw [← valid.circuits] at among
  obtain ⟨definition, listed, form_eq⟩ := List.mem_map.mp (List.mem_of_mem_filter among)
  have known
      : definition.key ∈ run.emitted.map Emitted.key ++ opens :=
    List.mem_append_left _ (List.mem_map_of_mem listed)
  obtain ⟨entry, handled, same⟩ := List.mem_map.mp (valid.known.mem_iff.mpr known)
  intro none
  have differs := List.lookup_eq_none_iff.mp none entry handled
  rw [valid.folded entry handled, same] at differs
  simp [Emitted.key, Form.key, form_eq] at differs

/-- A definition that was not handled before is opened. -/
theorem opened [Arithmetic] (valid : Valid hierarchy options opens done run) {form : Form}
    {label : String}
    (new : run.handled.lookup (Text.foldCase form.name) = none)
    : Valid hierarchy options (form.key :: opens) done (run.opened form label) where
  folded := by
    intro entry member
    rcases List.mem_cons.mp member with rfl | earlier
    · rfl
    · exact valid.folded entry earlier
  distinct := by
    refine List.nodup_cons.mpr ⟨fun member => ?_, valid.distinct⟩
    obtain ⟨entry, listed, same⟩ := List.mem_map.mp member
    have differs := List.lookup_eq_none_iff.mp new entry listed
    simp [same] at differs
  known := (valid.known.cons form.key).trans List.perm_middle.symm
  files := valid.files
  circuits := valid.circuits
  within := valid.within
  linked := valid.linked

/-- An open definition is written. -/
theorem closed [Arithmetic] {definition : Emitted} {middle : Run} {done' : List Netlist}
    (valid : Valid hierarchy options (definition.key :: opens) done middle)
    (backed : Backed hierarchy options middle.emitted definition) {text : String}
    (rendered : definition.unit.render options.dialect = .ok text) {levels : List String}
    (circuits
      : done.map (fun netlist => netlist.form options.clockMode)
          ++ [definition.form].filter Form.isCircuit
        = done'.map (fun netlist => netlist.form options.clockMode))
    (within : done' ⊆ hierarchy.netlists)
    : Valid hierarchy options opens done'
        (middle.closed levels ⟨filePath options.dialect definition.form, text⟩ definition) where
  folded := valid.folded
  distinct := valid.distinct
  known := by
    refine valid.known.trans ?_
    show (_ ++ _ :: _).Perm ((middle.emitted ++ [definition]).map Emitted.key ++ opens)
    rw [List.map_append, List.append_assoc]
    exact .refl _
  files := List.rel_append valid.files (.cons ⟨rfl, rendered⟩ .nil)
  circuits := by
    show ((middle.emitted ++ [definition]).map Emitted.form).filter Form.isCircuit = _
    rw [List.map_append, List.filter_append, valid.circuits]
    exact circuits
  within := within
  linked := valid.linked.snoc backed

end Valid

end SchematicHdl.Generation
