import SchematicHdl.Proofs.Generation.Draft
import SchematicHdl.Proofs.Realization.Resolve

/-! Placing the parts of a circuit. A pin, a clock source or an inlined component adds assignments;
every other component adds one instance, which fits the definition of the component.
-/

namespace SchematicHdl.Generation

open Hdl (Expr Instance Scope Statement)
open SchematicHdl.Outcome

variable {netlist : Netlist} {mode : ClockMode} {draft draft' : Draft}

-----------------------------------------------------------------------------------------
-- Single actions
-----------------------------------------------------------------------------------------

theorem onPlacement_run_eq_ok {α : Type} {action : PlacementM α} {result : α}
    (h : (onPlacement action).run draft = .ok (result, draft'))
    : ∃ notes, Succeeds action draft.notes result notes ∧ draft' = { draft with notes } := by
  simp only [onPlacement, run_bind_eq_ok, run_get_eq_ok, Prod.mk.injEq] at h
  obtain ⟨_, _, ⟨rfl, rfl⟩, h⟩ := h
  split at h
  · next found notes ran =>
      simp only [run_bind_eq_ok, run_modify_eq_ok, run_pure_eq_ok, Prod.mk.injEq] at h
      obtain ⟨_, _, ⟨_, rfl⟩, rfl, rfl⟩ := h
      exact ⟨notes, ran, rfl⟩
  · exact absurd h run_throw_ne_ok

theorem draftWarning_adds {message : String}
    (h : (draftWarning message).run draft = .ok ((), draft'))
    : Adds netlist mode [] [] draft draft' := by
  obtain ⟨-, rfl⟩ := Prod.mk.inj (run_modify_eq_ok.1 h)
  exact .none rfl rfl rfl

section Assignments

variable {statements : List Statement}
  (each
    : ∀ statement ∈ statements,
        statement.AssignsIf netlist.BubblesHeld (netlist.scope mode draft.notes.openWires))
include each

theorem addClocks_adds (h : (addClocks statements).run draft = .ok ((), draft'))
    : Adds netlist mode [] [] draft draft' := by
  obtain ⟨-, rfl⟩ := Prod.mk.inj (run_modify_eq_ok.1 h)
  exact
    ⟨List.Subset.refl _, { Sections.Extends.refl _ _ _ with clocks := .assigns each }, .refl rfl⟩

theorem addPins_adds (h : (addPins statements).run draft = .ok ((), draft'))
    : Adds netlist mode [] [] draft draft' := by
  obtain ⟨-, rfl⟩ := Prod.mk.inj (run_modify_eq_ok.1 h)
  exact ⟨List.Subset.refl _, { Sections.Extends.refl _ _ _ with pins := .assigns each }, .refl rfl⟩

theorem addInlined_adds (h : (addInlined statements).run draft = .ok ((), draft'))
    : Adds netlist mode [] [] draft draft' := by
  obtain ⟨-, rfl⟩ := Prod.mk.inj (run_modify_eq_ok.1 h)
  exact
    ⟨List.Subset.refl _, { Sections.Extends.refl _ _ _ with inlined := .assigns each }, .refl rfl⟩

theorem addSubcircuits_adds (h : (addSubcircuits statements).run draft = .ok ((), draft'))
    : Adds netlist mode [] [] draft draft' := by
  obtain ⟨-, rfl⟩ := Prod.mk.inj (run_modify_eq_ok.1 h)
  exact
    ⟨List.Subset.refl _, { Sections.Extends.refl _ _ _ with subcircuits := .assigns each },
      .refl rfl⟩

end Assignments

-----------------------------------------------------------------------------------------
-- Clock sources and pins
-----------------------------------------------------------------------------------------

section Held

variable {library : Library} {netlists : List Netlist} {part : Part}
  (holds : Netlist.Holds library netlists netlist part.component part)
include holds

theorem rooted_of_end {endIndex : Nat} {resolved : ResolvedEnd}
    (found : part.end? endIndex = some resolved)
    : ∀ point, some point ∈ resolved.points → netlist.nets.Rooted point := by
  obtain ⟨shape, -, attached⟩ := forall₂_getElem? holds.ends.flip found
  exact attached.rooted

/-- A clock source drives its net from its tree, or nothing at all. -/
theorem placeClock_adds (h : (placeClock netlist mode part).run draft = .ok ((), draft'))
    : Adds netlist mode [] [] draft draft' := by
  unfold placeClock at h
  split at h
  · next point tree found clocked =>
      refine addClocks_adds (Statement.assignsIf_of_assigns ?_) h
      obtain ⟨resolved, there, first⟩ := Option.bind_eq_some_iff.mp found
      have listed := List.mem_of_head? (Option.join_eq_some_iff.mp first)
      have known
          : netlist.SourceKnown mode draft.notes.openWires (.tree tree) :=
        (holds.clock tree clocked).2
      have clock : treeClock mode tree = (Placement.clockAndTick mode (.tree tree)).1 := by
        cases mode <;> rfl
      simp only [List.mem_singleton, forall_eq]
      refine
        ⟨_, _, 1, rfl, Netlist.pointExpr_hasWidth (rooted_of_end holds there point listed), ?_⟩
      rw [clock]
      exact (Netlist.clockAndTick_hasWidth known).1
  · exact draftWarning_adds h

end Held

theorem portBit_hasWidth {scope : Scope} {name : String} {width bit : Nat}
    (declared : (name, width) ∈ scope.names) (inside : bit < width)
    : (portBit name width bit).HasWidth scope 1 := by
  unfold portBit
  split
  · next single => exact .ref (single ▸ declared)
  · exact .index declared (by omega) inside

section Pins

variable {openWires : List String} {name : String} {resolved : ResolvedEnd}
  (declared : (name, resolved.width) ∈ (netlist.scope mode openWires).names)
  (rooted : ∀ point, some point ∈ resolved.points → netlist.nets.Rooted point)
include declared rooted

theorem inputPinStatements_assign
    : ∀ statement ∈ inputPinStatements netlist name resolved,
        statement.Assigns (netlist.scope mode openWires) := by
  unfold inputPinStatements
  split
  · next target slice =>
      simp only [List.mem_singleton, forall_eq]
      exact ⟨_, _, _, rfl, Netlist.endExpr?_hasWidth rooted slice, .ref declared⟩
  · intro statement member
    obtain ⟨⟨point?, bit⟩, numbered, made⟩ := List.mem_filterMap.mp member
    obtain ⟨point, rfl, rfl⟩ := Option.map_eq_some_iff.mp made
    have found := List.mem_zipIdx_iff_getElem?.1 numbered
    have inside := (List.getElem?_eq_some_iff.mp found).1
    exact
      ⟨_, _, _, rfl, Netlist.pointExpr_hasWidth (rooted point (List.mem_of_getElem? found)),
        portBit_hasWidth declared inside⟩

theorem outputPinStatements_assign
    : ∀ statement ∈ outputPinStatements netlist name resolved,
        statement.Assigns (netlist.scope mode openWires) := by
  unfold outputPinStatements
  split
  · next value slice =>
      simp only [List.mem_singleton, forall_eq]
      exact ⟨_, _, _, rfl, .ref declared, Netlist.endExpr?_hasWidth rooted slice⟩
  · intro statement member
    obtain ⟨⟨point?, bit⟩, numbered, rfl⟩ := List.mem_map.mp member
    have found := List.mem_zipIdx_iff_getElem?.1 numbered
    have inside := (List.getElem?_eq_some_iff.mp found).1
    refine ⟨_, _, _, rfl, portBit_hasWidth declared inside, ?_⟩
    cases point? with
    | none => exact .filled rfl
    | some point => exact Netlist.pointExpr_hasWidth (rooted point (List.mem_of_getElem? found))

end Pins

/-- The port of a named pin is as wide as its end. -/
theorem named_mem_scope (mode : ClockMode) {part : Part} (held : part ∈ netlist.parts)
    (openWires : List String) {direction : Direction} (category : part.category = .pin direction)
    (notInout : direction ≠ .inout) {resolved : ResolvedEnd} (found : part.end? 0 = some resolved)
    {name : String} (named : part.portName = some name)
    : (name, resolved.width) ∈ (netlist.scope mode openWires).names := by
  have boundary : part ∈ netlist.pins :=
    List.mem_filter.mpr ⟨held, Netlist.isPin_of_category category⟩
  have declared
      : (name, (part.end? 0).elim 1 ResolvedEnd.width) ∈ (netlist.scope mode openWires).names :=
    Netlist.pin_mem_scope boundary category notInout named
  simpa [found] using declared

section Boundary

variable {library : Library} {netlists : List Netlist} {part : Part}
  (holds : Netlist.Holds library netlists netlist part.component part)
  (held : part ∈ netlist.parts)
include holds

omit holds in
include held in
/-- A range of the output bubbles is tied with as many bits as it has, if the bus holds it. -/
theorem bubble_assigns (word : netlist.bubbles.get .output < Word.size) {openWires : List String}
    {range : BubbleRange} (reserved : part.bubbles.output = some range)
    : Statement.AssignsIf netlist.BubblesHeld (netlist.scope mode openWires)
        (.assign (netlist.bubbleExpr .output range) (.filled .zero (.fixed range.length))) := by
  refine ⟨⟨_, _, rfl⟩, fun inside => ?_⟩
  obtain ⟨ordered, within⟩ := inside part held .output range reserved
  refine ⟨_, _, _, rfl, Netlist.bubbleExpr_hasWidth ordered within, .filled ?_⟩
  rw [Hdl.Width.value?, BubbleRange.length_eq ordered (Nat.lt_of_le_of_lt within word)]

include held

theorem placeOutputPin_adds (word : netlist.bubbles.get .output < Word.size)
    (category : part.category = .pin .output) {resolved : ResolvedEnd}
    (found : part.end? 0 = some resolved)
    (h : (placeOutputPin netlist part resolved).run draft = .ok ((), draft'))
    : Adds netlist mode [] [] draft draft' := by
  have rooted := rooted_of_end holds found
  unfold placeOutputPin at h
  split at h
  · next name named =>
      have declared (mode : ClockMode) :=
        named_mem_scope mode held draft.notes.openWires category (by simp) found named
      obtain ⟨_, middle, pins, h⟩ := run_bind_eq_ok.1 h
      have assigns := outputPinStatements_assign (declared mode) rooted
      have first := addPins_adds (Statement.assignsIf_of_assigns assigns) pins
      split at h
      · exact first.trans (draftWarning_adds h)
      · obtain ⟨-, rfl⟩ := Prod.mk.inj (run_pure_eq_ok.1 h)
        exact first
  · split at h
    · next range reserved =>
        obtain ⟨_, middle, warned, h⟩ := run_bind_eq_ok.1 h
        refine (draftWarning_adds warned).trans (addPins_adds ?_ h)
        simpa using bubble_assigns held word reserved
    · obtain ⟨-, rfl⟩ := Prod.mk.inj (run_pure_eq_ok.1 h)
      exact .none rfl rfl rfl

theorem placePin_adds (word : netlist.bubbles.get .output < Word.size) {direction : Direction}
    (category : part.category = .pin direction)
    (h : (placePin netlist direction part).run draft = .ok ((), draft'))
    : Adds netlist mode [] [] draft draft' := by
  unfold placePin at h
  split at h
  · next resolved found =>
      split at h
      · next name named =>
          refine addPins_adds (Statement.assignsIf_of_assigns ?_) h
          refine inputPinStatements_assign ?_ (rooted_of_end holds found)
          exact named_mem_scope mode held _ category (by simp) found named
      · obtain ⟨-, rfl⟩ := Prod.mk.inj (run_pure_eq_ok.1 h)
        exact .none rfl rfl rfl
  · next resolved found => exact placeOutputPin_adds holds held word category found h
  · obtain ⟨-, rfl⟩ := Prod.mk.inj (run_pure_eq_ok.1 h)
    exact .none rfl rfl rfl

end Boundary

-----------------------------------------------------------------------------------------
-- Instances
-----------------------------------------------------------------------------------------

theorem tieEnd_assign {openWires : List String} {resolved : ResolvedEnd}
    (rooted : ∀ point, some point ∈ resolved.points → netlist.nets.Rooted point)
    : ∀ statement ∈ tieEnd netlist resolved,
        statement.Assigns (netlist.scope mode openWires) := by
  unfold tieEnd
  split
  · next target slice =>
      simp only [List.mem_singleton, forall_eq]
      exact ⟨_, _, _, rfl, Netlist.endExpr?_hasWidth rooted slice, .filled rfl⟩
  · intro statement member
    obtain ⟨point, listed, rfl⟩ := List.mem_map.mp member
    obtain ⟨point?, among, rfl⟩ := List.mem_filterMap.mp listed
    exact ⟨_, _, _, rfl, Netlist.pointExpr_hasWidth (rooted point among), .filled rfl⟩

/-- The ends of an instance are tied one after the other. -/
theorem tieBubbles_adds (mode : ClockMode) {library : Library} {netlists : List Netlist}
    {part : Part}
    (holds : Netlist.Holds library netlists netlist part.component part) {child : Netlist}
    (h : (tieBubbles netlist part child).run draft = .ok ((), draft'))
    : Adds netlist mode [] [] draft draft' := by
  refine (forM_run_eq_ok.1 h).keeps (P := Adds netlist mode [] [] draft) ?_ (.none rfl rfl rfl)
  rintro ⟨resolved, pin⟩ listed s s' step sofar
  refine sofar.trans ?_
  simp only at step
  split at step
  · obtain ⟨_, middle, tied, warned⟩ := run_bind_eq_ok.1 step
    obtain ⟨endIndex, found⟩ := List.getElem?_of_mem (List.of_mem_zip listed).1
    refine (addSubcircuits_adds (Statement.assignsIf_of_assigns ?_) tied).trans
      (draftWarning_adds warned)
    exact tieEnd_assign (rooted_of_end holds found)
  · obtain ⟨-, rfl⟩ := Prod.mk.inj (run_pure_eq_ok.1 step)
    exact .none rfl rfl rfl

theorem instanceLabel_draft {part : Part} {form : Form} {label : String}
    (h : (instanceLabel part form).run draft = .ok (label, draft'))
    : draft' = { draft with labelCounts := draft'.labelCounts } := by
  unfold instanceLabel at h
  split at h
  · obtain ⟨-, rfl⟩ := Prod.mk.inj (run_pure_eq_ok.1 h)
    rfl
  · simp only [run_bind_eq_ok, run_get_eq_ok, run_set_eq_ok, run_pure_eq_ok, Prod.mk.injEq] at h
    obtain ⟨_, _, ⟨rfl, rfl⟩, _, _, ⟨_, rfl⟩, _, rfl⟩ := h
    rfl

/-- The instance is what the part becomes, with dangling wires that are there, it binds its ports to
something, and if the bubble busses hold its ranges, it fits the definition that the part has in the
dialect of the run.
-/
def Realizes (hierarchy : Hierarchy) (options : Options) (netlist : Netlist)
    (openWires : List String) (part : Part) (inst : Instance)
    : Prop :=
  ∃ realization,
    Realization.resolve hierarchy options.clockMode options.dialect part.component
      = .ok realization
    ∧ realization.isInlined = false
    ∧ (∃ label notes notes',
        Succeeds
          ((Placement.mk netlist part label options.clockMode).instantiate realization.form) notes
          inst notes'
        ∧ notes'.openWires ⊆ openWires)
    ∧ ∀ architecture,
        inst.LinksIf (netlist.BubblesInside part) (netlist.scope options.clockMode openWires)
          (realization.form.unit architecture)

variable {hierarchy : Hierarchy} {options : Options}

theorem Realizes.mono {openWires more : List String} {part : Part} {inst : Instance}
    (realizes : Realizes hierarchy options netlist openWires part inst)
    (within : openWires ⊆ more)
    : Realizes hierarchy options netlist more part inst := by
  obtain ⟨realization, resolved, notInlined, ⟨label, notes, notes', made, wires⟩, links⟩ := realizes
  exact
    ⟨realization, resolved, notInlined,
      ⟨label, notes, notes', made, List.Subset.trans wires within⟩,
      fun architecture => (links architecture).mono id (Netlist.scope_mono within) rfl⟩

end SchematicHdl.Generation

namespace SchematicHdl

/-- Neither a pin nor a clock source, and not inlined. -/
def Part.isInstantiated (part : Part) : Bool :=
  match part.category with
  | .pin _ => false
  | .clockSource => false
  | _ => !part.component.isInlined

/-- Not a circuit. -/
def Part.isNormal (part : Part) : Bool := part.category = .normal

end SchematicHdl

namespace SchematicHdl.Generation

open Hdl (Expr Instance Scope Statement)
open SchematicHdl.Outcome

variable {hierarchy : Hierarchy} {options : Options} {netlist : Netlist} {draft draft' : Draft}

/-- What placing a part does: it adds assignments, or one instance to its section. -/
inductive Placed (hierarchy : Hierarchy) (options : Options) (netlist : Netlist) (part : Part)
    (draft draft' : Draft)
    : Prop
  | assigned (unplaced : part.isInstantiated = false)
    (adds : Adds netlist options.clockMode [] [] draft draft')
  | normal {inst} (placed : part.isInstantiated = true) (kind : part.isNormal = true)
    (adds : Adds netlist options.clockMode [inst] [] draft draft')
    (realizes : Realizes hierarchy options netlist draft'.notes.openWires part inst)
  | subcircuit {inst} (placed : part.isInstantiated = true) (kind : part.isNormal = false)
    (adds : Adds netlist options.clockMode [] [inst] draft draft')
    (realizes : Realizes hierarchy options netlist draft'.notes.openWires part inst)

section Analyzed

variable {library : Library} (sound : hierarchy.Sound library)
  (analyzed : netlist ∈ hierarchy.netlists)
include sound analyzed

theorem placeInstance_placed {part : Part} (held : part ∈ netlist.parts)
    {realization : Realization}
    (resolved
      : Realization.resolve hierarchy options.clockMode options.dialect part.component
        = .ok realization)
    (notInlined : realization.isInlined = false)
    (h
      : (placeInstance netlist options.clockMode part realization).run draft = .ok ((), draft'))
    : Placed hierarchy options netlist part draft draft' := by
  obtain ⟨holds, supported⟩ := sound.part analyzed held
  have resolves := Realization.resolve_resolves resolved
  have plain : part.component.isInlined = false := resolves.isInlined_eq ▸ notInlined
  simp only [placeInstance, run_bind_eq_ok] at h
  obtain ⟨label, _, labelled, _, _, claimed, inst, _, made, h⟩ := h
  have counted := instanceLabel_draft labelled
  obtain ⟨fresh, rfl⟩ := claim_run_eq_ok.1 claimed
  obtain ⟨notes, instantiated, rfl⟩ := onPlacement_run_eq_ok made
  obtain ⟨fits, sized⟩ :=
    resolves.fits sound ⟨netlist, part, label, options.clockMode⟩ holds supported notInlined
  obtain ⟨within, rfl, links⟩ :=
    Placement.instantiate_spec fits sized (sound.netlists _ analyzed).clocks instantiated
  have realizes : Realizes hierarchy options netlist notes.openWires part inst :=
    ⟨realization, resolved, notInlined, ⟨_, _, _, instantiated, List.Subset.refl _⟩, links⟩
  rw [counted] at fresh h within
  have category := resolves.category_eq
  split at h
  · next child definition =>
      rw [definition] at category
      have placed : part.isInstantiated = true := by
        simp [Part.isInstantiated, Part.category, category, plain]
      obtain ⟨_, middle, added, tied⟩ := run_bind_eq_ok.1 h
      obtain ⟨-, rfl⟩ := Prod.mk.inj (run_modify_eq_ok.1 added)
      have tied := tieBubbles_adds options.clockMode holds tied
      refine .subcircuit placed (by simp [Part.isNormal, Part.category, category])
        (.followed ?_ tied) (realizes.mono tied.openWires)
      exact
        ⟨within, { Sections.Extends.refl _ _ _ with subcircuits := .instantiate inst },
          claims_of_lookup fresh rfl⟩
  · next other =>
      obtain ⟨-, rfl⟩ := Prod.mk.inj (run_modify_eq_ok.1 h)
      have category : part.component.category = .normal := by
        rw [category]
        split
        · next child definition => exact absurd definition (other child)
        · rfl
      have placed : part.isInstantiated = true := by
        simp [Part.isInstantiated, Part.category, category, plain]
      refine .normal placed (by simp [Part.isNormal, Part.category, category]) ?_ realizes
      exact
        ⟨within, { Sections.Extends.refl _ _ _ with normal := .instantiate inst },
          claims_of_lookup fresh rfl⟩

/-- A component is inlined, or it becomes an instance. -/
theorem placeComponent_placed {part : Part} (held : part ∈ netlist.parts)
    (h : (placeComponent hierarchy options netlist part).run draft = .ok ((), draft'))
    : Placed hierarchy options netlist part draft draft' := by
  obtain ⟨holds, -⟩ := sound.part analyzed held
  simp only [placeComponent, run_bind_eq_ok, run_ofExcept_eq_ok, Prod.mk.injEq] at h
  obtain ⟨realization, _, ⟨_, resolved, rfl, rfl⟩, h⟩ := h
  split at h
  · next inlined =>
      have resolves := Realization.resolve_resolves resolved
      have unplaced : part.isInstantiated = false := by
        have inline : part.component.isInlined = true := resolves.isInlined_eq ▸ inlined
        unfold Part.isInstantiated
        split <;> simp [inline]
      obtain ⟨statements, _, made, added⟩ := run_bind_eq_ok.1 h
      obtain ⟨notes, inlines, rfl⟩ := onPlacement_run_eq_ok made
      obtain ⟨openWires, assigns⟩ := resolves.inlineStatements_assign holds inlined inlines
      have added := addInlined_adds (Statement.assignsIf_of_assigns assigns) added
      refine .assigned unplaced (.followed ?_ added)
      exact .none openWires rfl rfl
  · next notInlined =>
      exact placeInstance_placed sound analyzed held resolved (by simpa using notInlined) h

theorem placePart_placed {part : Part} (held : part ∈ netlist.parts)
    (h : (placePart hierarchy options netlist part).run draft = .ok ((), draft'))
    : Placed hierarchy options netlist part draft draft' := by
  obtain ⟨holds, -⟩ := sound.part analyzed held
  unfold placePart at h
  split at h
  · next category =>
      exact .assigned (by simp [Part.isInstantiated, category]) (placeClock_adds holds h)
  · next direction category =>
      have word := (sound.netlists _ analyzed).words .output
      exact
        .assigned (by simp [Part.isInstantiated, category])
          (placePin_adds holds held word category h)
  · exact placeComponent_placed sound analyzed held h
  · exact placeComponent_placed sound analyzed held h

/-- All parts, one after the other: each instantiated one adds its instance, by induction on the
parts.
-/
theorem placeParts_adds {parts : List Part} (held : ∀ part ∈ parts, part ∈ netlist.parts)
    (h : (parts.forM (placePart hierarchy options netlist)).run draft = .ok ((), draft'))
    : ∃ normal subcircuits,
        Adds netlist options.clockMode normal subcircuits draft draft'
        ∧ List.Forall₂ (Realizes hierarchy options netlist draft'.notes.openWires)
            ((parts.filter Part.isInstantiated).filter Part.isNormal) normal
        ∧ List.Forall₂ (Realizes hierarchy options netlist draft'.notes.openWires)
            ((parts.filter Part.isInstantiated).filter (fun part => !part.isNormal))
            subcircuits := by
  have chained := forM_run_eq_ok.1 h
  clear h
  induction chained with
  | nil => exact ⟨[], [], .none rfl rfl rfl, .nil, .nil⟩
  | @cons part parts s s' s'' head _ ih =>
      obtain ⟨normal, subcircuits, adds, realizeNormal, realizeSubcircuits⟩ :=
        ih fun part member => held part (List.mem_cons_of_mem _ member)
      cases placePart_placed sound analyzed (held part List.mem_cons_self) head with
      | assigned unplaced first =>
          refine ⟨normal, subcircuits, first.trans adds, ?_, ?_⟩ <;>
            simpa only [List.filter_cons, unplaced]
      | @normal inst placed kind first realizes =>
          refine ⟨inst :: normal, subcircuits, first.trans adds, ?_, ?_⟩ <;>
            rw [List.filter_cons_of_pos placed]
          · rw [List.filter_cons_of_pos kind]
            exact .cons (realizes.mono adds.openWires) realizeNormal
          · rwa [List.filter_cons_of_neg (by simp [kind])]
      | @subcircuit inst placed kind first realizes =>
          refine ⟨normal, inst :: subcircuits, first.trans adds, ?_, ?_⟩ <;>
            rw [List.filter_cons_of_pos placed]
          · rwa [List.filter_cons_of_neg (by simp [kind])]
          · rw [List.filter_cons_of_pos (by simp [kind])]
            exact .cons (realizes.mono adds.openWires) realizeSubcircuits

end Analyzed

end SchematicHdl.Generation
