import SchematicHdl.Proofs.Generation.Targets
import SchematicHdl.Proofs.Hierarchy.ClockTrees
import SchematicHdl.Proofs.Realization.Notes
import SchematicHdl.Proofs.Realization.Operands

/-! Coverage of what the parts of a circuit drive. Each connected bit that a pin, a clock source or
an inlined component drives is assigned to, unless a warning tells of the component or a gate lacks
an operand there; the ends of an instance at output pins that became bubbles are tied.
-/

namespace SchematicHdl.Generation

open Hdl (Expr Statement)
open Net (Endpoint Point)
open SchematicHdl.Outcome

-----------------------------------------------------------------------------------------
-- Drafts that grow
-----------------------------------------------------------------------------------------

/-- No target and no warning is withdrawn. -/
structure Draft.Grows (draft draft' : Draft) : Prop where
  targets : draft.sections.targets ⊆ draft'.sections.targets
  warnings : draft.notes.warnings ⊆ draft'.notes.warnings

namespace Draft.Grows

variable {draft middle draft' : Draft}

theorem refl (draft : Draft) : draft.Grows draft := ⟨List.Subset.refl _, List.Subset.refl _⟩

theorem trans (first : draft.Grows middle) (second : middle.Grows draft') : draft.Grows draft' where
  targets := List.Subset.trans first.targets second.targets
  warnings := List.Subset.trans first.warnings second.warnings

/-- Nothing but names and counts of labels. -/
theorem of_eq (notes : draft'.notes = draft.notes) (sections : draft'.sections = draft.sections)
    : draft.Grows draft' := by
  constructor
  · rw [sections]
    exact List.Subset.refl _
  · rw [notes]
    exact List.Subset.refl _

end Draft.Grows

variable {netlist : Netlist} {draft draft' : Draft}

theorem Added.grows {statements : List Statement} (added : Added statements draft draft')
    : draft.Grows draft' where
  targets := fun _ member =>
    added.targets.symm.subset (List.mem_append_left _ member)
  warnings := added.notes_eq ▸ List.Subset.refl _

/-- Statements that are added drive what their targets drive. -/
theorem Added.drivesEnd {statements : List Statement} (added : Added statements draft draft')
    {resolved : ResolvedEnd}
    (driven : netlist.DrivesEnd (statements.flatMap Statement.targets) resolved)
    : netlist.DrivesEnd draft'.sections.targets resolved :=
  driven.mono fun _ member => added.targets.symm.subset (List.mem_append_right _ member)

theorem draftWarning_grows {message : String}
    (h : (draftWarning message).run draft = .ok ((), draft'))
    : draft.Grows draft' := by
  obtain ⟨-, rfl⟩ := Prod.mk.inj (run_modify_eq_ok.1 h)
  exact ⟨List.Subset.refl _, List.subset_append_left _ _⟩

theorem onPlacement_grows {α : Type} {action : PlacementM α} {result : α}
    (kept
      : ∀ {notes notes' result},
          Succeeds action notes result notes' → notes.warnings ⊆ notes'.warnings)
    (h : (onPlacement action).run draft = .ok (result, draft'))
    : draft.Grows draft' := by
  obtain ⟨notes, ran, rfl⟩ := onPlacement_run_eq_ok h
  exact ⟨List.Subset.refl _, kept ran⟩

theorem placeClock_grows {mode : ClockMode} {part : Part}
    (h : (placeClock netlist mode part).run draft = .ok ((), draft'))
    : draft.Grows draft' := by
  unfold placeClock at h
  split at h
  · exact (addClocks_added h).grows
  · exact draftWarning_grows h

theorem placePin_grows {direction : Direction} {part : Part}
    (h : (placePin netlist direction part).run draft = .ok ((), draft'))
    : draft.Grows draft' := by
  have nothing (h : (pure () : DraftM Unit).run draft = .ok ((), draft')) : draft.Grows draft' := by
    obtain ⟨-, rfl⟩ := Prod.mk.inj (run_pure_eq_ok.1 h)
    exact .refl _
  unfold placePin at h
  split at h
  · split at h
    · exact (addPins_added h).grows
    · exact nothing h
  · unfold placeOutputPin at h
    split at h
    · obtain ⟨_, middle, pins, h⟩ := run_bind_eq_ok.1 h
      refine (addPins_added pins).grows.trans ?_
      split at h
      · exact draftWarning_grows h
      · obtain ⟨-, rfl⟩ := Prod.mk.inj (run_pure_eq_ok.1 h)
        exact .refl _
    · split at h
      · obtain ⟨_, middle, warned, h⟩ := run_bind_eq_ok.1 h
        exact (draftWarning_grows warned).trans (addPins_added h).grows
      · exact nothing h
  · exact nothing h

/-- What is done for an end of an instance and the pin it belongs to: the end is tied, or there is
no need to.
-/
inductive TiesEnd (netlist : Netlist) (entry : ResolvedEnd × Part) (draft draft' : Draft) : Prop
  | tied {middle} (added : Added (tieEnd netlist entry.1) draft middle)
    (later : middle.Grows draft')
  | needless
    (needless
      : entry.2.category = .pin .output → entry.2.portName = none → entry.1.isUnconnected = true)
    (same : draft' = draft)

theorem TiesEnd.grows {entry : ResolvedEnd × Part} (ties : TiesEnd netlist entry draft draft')
    : draft.Grows draft' := by
  cases ties with
  | tied added later => exact added.grows.trans later
  | needless _ same => exact same ▸ .refl _

theorem tieBubbles_tiesEnds {part : Part} {child : Netlist}
    (h : (tieBubbles netlist part child).run draft = .ok ((), draft'))
    : Chained (TiesEnd netlist) (part.ends.zip child.pins) draft draft' := by
  refine (forM_run_eq_ok.1 h).imp fun ⟨resolved, pin⟩ s s' step => ?_
  simp only at step
  split at step
  · obtain ⟨_, middle, added, warned⟩ := run_bind_eq_ok.1 step
    exact .tied (addSubcircuits_added added) (draftWarning_grows warned)
  · next needless =>
      obtain ⟨-, rfl⟩ := Prod.mk.inj (run_pure_eq_ok.1 step)
      refine .needless (fun output (unnamed : pin.portName = none) => ?_) rfl
      simpa [output, unnamed] using needless

theorem tieBubbles_grows {part : Part} {child : Netlist}
    (h : (tieBubbles netlist part child).run draft = .ok ((), draft'))
    : draft.Grows draft' :=
  (tieBubbles_tiesEnds h).keeps (P := draft.Grows)
    (fun _ _ _ _ ties sofar => sofar.trans ties.grows) (.refl _)

theorem placeInstance_grows {mode : ClockMode} {part : Part} {realization : Realization}
    (h : (placeInstance netlist mode part realization).run draft = .ok ((), draft'))
    : draft.Grows draft' := by
  simp only [placeInstance, run_bind_eq_ok] at h
  obtain ⟨label, labelled, counted, _, named, claimed, inst, placed, made, h⟩ := h
  have first : draft.Grows labelled := by
    rw [instanceLabel_draft counted]
    exact .of_eq rfl rfl
  have second : labelled.Grows named := by
    obtain ⟨-, rfl⟩ := claim_run_eq_ok.1 claimed
    exact .of_eq rfl rfl
  refine
    ((first.trans second).trans (onPlacement_grows Placement.instantiate_warnings made)).trans ?_
  split at h
  · obtain ⟨_, middle, added, tied⟩ := run_bind_eq_ok.1 h
    exact (addSubcircuits_added added).grows.trans (tieBubbles_grows tied)
  · exact (addNormal_added h).grows

theorem placeComponent_grows {hierarchy : Hierarchy} {options : Options} {part : Part}
    (h : (placeComponent hierarchy options netlist part).run draft = .ok ((), draft'))
    : draft.Grows draft' := by
  simp only [placeComponent, run_bind_eq_ok, run_ofExcept_eq_ok, Prod.mk.injEq] at h
  obtain ⟨realization, _, ⟨_, -, rfl, rfl⟩, h⟩ := h
  split at h
  · obtain ⟨statements, middle, made, added⟩ := run_bind_eq_ok.1 h
    exact
      (onPlacement_grows Placement.inlineStatements_warnings made).trans
        (addInlined_added added).grows
  · exact placeInstance_grows h

theorem placePart_grows {hierarchy : Hierarchy} {options : Options} {part : Part}
    (h : (placePart hierarchy options netlist part).run draft = .ok ((), draft'))
    : draft.Grows draft' := by
  unfold placePart at h
  split at h
  · exact placeClock_grows h
  · exact placePin_grows h
  · exact placeComponent_grows h
  · exact placeComponent_grows h

-----------------------------------------------------------------------------------------
-- Pins and clock sources
-----------------------------------------------------------------------------------------

theorem inputPinStatements_drivesEnd {name : String} {resolved : ResolvedEnd}
    : netlist.DrivesEnd ((inputPinStatements netlist name resolved).flatMap Statement.targets)
        resolved := by
  unfold inputPinStatements
  split
  · next slice => exact Netlist.drivesEnd_of_endExpr? slice List.mem_cons_self
  · refine Netlist.drivesEnd_of_points fun point connected => ?_
    obtain ⟨bit, found⟩ := List.getElem?_of_mem connected
    have numbered : (some point, bit) ∈ resolved.points.zipIdx :=
      List.mem_zipIdx_iff_getElem?.mpr found
    exact List.mem_flatMap.mpr ⟨_, List.mem_filterMap.mpr ⟨_, numbered, rfl⟩, List.mem_cons_self⟩

theorem tieEnd_drivesEnd {resolved : ResolvedEnd}
    : netlist.DrivesEnd ((tieEnd netlist resolved).flatMap Statement.targets) resolved := by
  unfold tieEnd
  split
  · next slice => exact Netlist.drivesEnd_of_endExpr? slice List.mem_cons_self
  · refine Netlist.drivesEnd_of_points fun point connected => ?_
    have listed : point ∈ resolved.connectedPoints := List.mem_filterMap.mpr ⟨_, connected, rfl⟩
    exact List.mem_flatMap.mpr ⟨_, List.mem_map_of_mem listed, List.mem_cons_self⟩

theorem end?_of_single {part : Part} {only resolved : ResolvedEnd} (ends : part.ends = [only])
    {endIndex : Nat} (found : part.end? endIndex = some resolved)
    : endIndex = 0 ∧ resolved = only := by
  rw [Part.end?, ends] at found
  cases endIndex with
  | zero => exact ⟨rfl, (Option.some.inj found).symm⟩
  | succ => cases found

section Held

variable {library : Library} {netlists : List Netlist} {part : Part}
  (holds : Netlist.Holds library netlists netlist part.component part) {net : Nat}
  {source : Endpoint} (lands : Netlist.Lands part .driver net source)
include holds lands

/-- A clock source with a tree assigns the clock to the only bit of its end. -/
theorem placeClock_drives {mode : ClockMode} (category : part.category = .clockSource)
    (clocked : part.clockTree.isSome = true)
    (h : (placeClock netlist mode part).run draft = .ok ((), draft'))
    : netlist.DrivesPoint draft'.sections.targets ⟨net, source.netBit⟩ := by
  obtain ⟨resolved, found, -, connected, -⟩ := lands
  have kind : part.component.kind = .clock := Netlist.kind_of_clockSource category
  obtain ⟨only, ends, width⟩ : ∃ only, part.ends = [only] ∧ only.width = 1 := by
    have shaped := holds.ends
    rw [Library.ends, kind, List.forall₂_cons_left_iff] at shaped
    obtain ⟨only, rest, attached, nothing, ends⟩ := shaped
    rw [List.forall₂_nil_left_iff.mp nothing] at ends
    exact ⟨only, ends, attached.width_eq⟩
  obtain ⟨first, rfl⟩ := end?_of_single ends found
  have points : resolved.points = [some ⟨net, source.netBit⟩] := by
    obtain ⟨point, single⟩ := List.length_eq_one_iff.mp width
    have listed := List.mem_of_getElem? connected
    rw [single] at listed ⊢
    rw [List.mem_singleton.mp listed]
  obtain ⟨tree, clocked⟩ := Option.isSome_iff_exists.mp clocked
  rw [first] at found
  simp only [placeClock, found, clocked, points, Option.bind_some, List.head?_cons,
    Option.join_some] at h
  have assigned
      : netlist.DrivesEnd
          ([Statement.assign (netlist.pointExpr ⟨net, source.netBit⟩) (treeClock mode tree)].flatMap
            Statement.targets)
          resolved := by
    refine Netlist.drivesEnd_of_points fun point listed => ?_
    obtain rfl : point = ⟨net, source.netBit⟩ := by simpa [points] using listed
    exact List.mem_cons_self
  exact (addClocks_added h).drivesEnd assigned _ (List.mem_of_getElem? connected)

/-- A pin that drives is an input pin with a port, or an inout pin with one. -/
theorem placePin_drives (realizable : netlist.isRealizable = true) (held : part ∈ netlist.parts)
    {direction : Direction} (category : part.category = .pin direction)
    (h : (placePin netlist direction part).run draft = .ok ((), draft'))
    : netlist.DrivesPoint draft'.sections.targets ⟨net, source.netBit⟩ := by
  obtain ⟨resolved, found, drives, connected, -⟩ := lands
  have kind := Netlist.kind_of_category category
  obtain ⟨only, ends, fate⟩ := holds.pin _ kind
  obtain ⟨first, rfl⟩ := end?_of_single ends found
  have listed := List.mem_of_getElem? connected
  obtain ⟨name, named⟩ : ∃ name, part.portName = some name := by
    cases fate with
    | bubble unconnected =>
        have none := List.all_eq_true.mp unconnected _ listed
        cases none
    | named _ name => exact ⟨_, name⟩
  rw [first] at found
  cases direction with
  | input =>
      simp only [placePin, found, named] at h
      exact (addPins_added h).drivesEnd inputPinStatements_drivesEnd _ listed
  | output =>
      have shaped := holds.ends
      rw [Library.ends, kind, ends, List.forall₂_cons] at shaped
      rw [Role.played, shaped.1.direction_eq] at drives
      cases drives
  | inout =>
      have boundary : part ∈ netlist.pins :=
        List.mem_filter.mpr ⟨held, Netlist.isPin_of_category category⟩
      simp [Netlist.portName_eq_none realizable boundary category] at named

end Held

-----------------------------------------------------------------------------------------
-- Parts
-----------------------------------------------------------------------------------------

/-- What becomes of a bit that a part drives where the part is no instance. -/
inductive Draft.Accounts (netlist : Netlist) (part : Part) (net : Nat) (source : Endpoint)
    (draft : Draft)
    : Prop
  | driven (driven : netlist.DrivesPoint draft.sections.targets ⟨net, source.netBit⟩)
  | warned (told : part.component.undrivenWarning ∈ draft.notes.warnings)
  | lacking (lacks : part.LacksOperand source.bit)

theorem Draft.Accounts.grows {part : Part} {net : Nat} {source : Endpoint}
    (accounts : draft.Accounts netlist part net source) (grows : draft.Grows draft')
    : draft'.Accounts netlist part net source := by
  cases accounts with
  | driven driven => exact .driven (driven.mono grows.targets)
  | warned told => exact .warned (grows.warnings told)
  | lacking lacks => exact .lacking lacks

theorem placeComponent_accounts {library : Library} {hierarchy : Hierarchy} {options : Options}
    {part : Part}
    (holds : Netlist.Holds library hierarchy.netlists netlist part.component part)
    (inlined : part.component.isInlined = true) {net : Nat} {source : Endpoint}
    (lands : Netlist.Lands part .driver net source)
    (h : (placeComponent hierarchy options netlist part).run draft = .ok ((), draft'))
    : draft'.Accounts netlist part net source := by
  obtain ⟨resolved, found, drives, connected, -⟩ := lands
  simp only [placeComponent, run_bind_eq_ok, run_ofExcept_eq_ok, Prod.mk.injEq] at h
  obtain ⟨_, _, ⟨realization, taken, rfl, rfl⟩, h⟩ := h
  have resolves := Realization.resolve_resolves taken
  rw [if_pos (resolves.isInlined_eq.trans inlined)] at h
  obtain ⟨statements, middle, made, added⟩ := run_bind_eq_ok.1 h
  obtain ⟨notes, inlines, rfl⟩ := onPlacement_run_eq_ok made
  have added := addInlined_added added
  let placement : Placement := ⟨netlist, part, "", options.clockMode⟩
  have known
      : Realization.Resolves hierarchy placement.mode options.dialect placement.part.component
          realization :=
    resolves
  have accounted :=
    known.inlineStatements_drives holds (resolves.isInlined_eq.trans inlined) inlines found drives
      connected
  rcases accounted with driven | told | lacks
  · refine .driven (driven.mono fun target member => ?_)
    exact added.targets.symm.subset (List.mem_append_right _ member)
  · exact .warned (added.grows.warnings told)
  · exact .lacking lacks

/-- A pin, a clock source and an inlined component account for what they drive. -/
theorem placePart_accounts {library : Library} {hierarchy : Hierarchy} {options : Options}
    {part : Part}
    (holds : Netlist.Holds library hierarchy.netlists netlist part.component part)
    (realizable : netlist.isRealizable = true) (held : part ∈ netlist.parts)
    (clocked : part.category = .clockSource → part.clockTree.isSome = true)
    (notPlaced : part.isInstantiated = false) {net : Nat} {source : Endpoint}
    (lands : Netlist.Lands part .driver net source)
    (h : (placePart hierarchy options netlist part).run draft = .ok ((), draft'))
    : draft'.Accounts netlist part net source := by
  unfold Part.isInstantiated at notPlaced
  unfold placePart at h
  split at h
  · next category => exact .driven (placeClock_drives holds lands category (clocked category) h)
  · next category => exact .driven (placePin_drives holds lands realizable held category h)
  all_goals
    next category =>
      simp only [category, Bool.not_eq_false'] at notPlaced
      exact placeComponent_accounts holds notPlaced lands h

-----------------------------------------------------------------------------------------
-- Bubbles
-----------------------------------------------------------------------------------------

theorem TiesEnd.drivesEnd {resolved : ResolvedEnd} {pin : Part}
    (ties : TiesEnd netlist (resolved, pin) draft draft') (category : pin.category = .pin .output)
    (unnamed : pin.portName = none)
    : netlist.DrivesEnd draft'.sections.targets resolved := by
  cases ties with
  | tied added later => exact (added.drivesEnd tieEnd_drivesEnd).mono later.targets
  | needless needless => exact Netlist.drivesEnd_of_isUnconnected (needless category unnamed)

/-- Where an output pin became a bubble, the end of the instance is tied. -/
theorem placePart_ties {hierarchy : Hierarchy} {options : Options} {part : Part} {endIndex : Nat}
    (bubble : part.OnBubble hierarchy.netlists endIndex .output) {resolved : ResolvedEnd}
    (found : part.end? endIndex = some resolved)
    (h : (placePart hierarchy options netlist part).run draft = .ok ((), draft'))
    : netlist.DrivesEnd draft'.sections.targets resolved := by
  obtain ⟨target, child, pin, kind, known, atPin, output, unnamed⟩ := bubble
  have category : part.category = .subcircuit := by
    simp [Part.category, Component.category, kind]
  simp only [placePart, category, placeComponent, run_bind_eq_ok, run_ofExcept_eq_ok,
    Prod.mk.injEq] at h
  obtain ⟨_, _, ⟨realization, taken, rfl, rfl⟩, h⟩ := h
  cases Realization.resolve_resolves taken with
  | primitive other | external other => simp [kind] at other
  | @subcircuit _ _ same there =>
      obtain rfl := ComponentKind.subcircuit.inj (kind.symm.trans same)
      obtain rfl := Option.some.inj (known.symm.trans there)
      rw [if_neg (by simp [Realization.ofNetlist, Realization.isInlined])] at h
      simp only [placeInstance, Realization.ofNetlist, run_bind_eq_ok] at h
      obtain ⟨_, _, -, _, _, -, _, _, -, _, _, -, tied⟩ := h
      have paired : (resolved, pin) ∈ part.ends.zip child.pins := by
        refine List.mem_of_getElem? (i := endIndex) ?_
        rw [List.getElem?_zip_eq_some]
        exact ⟨found, atPin⟩
      obtain ⟨_, _, step, later⟩ :=
        (tieBubbles_tiesEnds tied).exists_step Draft.Grows.refl Draft.Grows.trans
          (fun _ _ _ _ ties => ties.grows) paired
      exact (step.drivesEnd output unnamed).mono later.targets

-----------------------------------------------------------------------------------------
-- The architecture
-----------------------------------------------------------------------------------------

/-- What is done for a part that is placed stays done while the other parts are placed. -/
theorem placeParts_step {hierarchy : Hierarchy} {options : Options} {parts : List Part}
    (h : (parts.forM (placePart hierarchy options netlist)).run draft = .ok ((), draft'))
    {part : Part} (held : part ∈ parts)
    : ∃ before after,
        (placePart hierarchy options netlist part).run before = .ok ((), after)
        ∧ after.Grows draft' :=
  (forM_run_eq_ok.1 h).exists_step Draft.Grows.refl Draft.Grows.trans
    (fun _ _ _ _ => placePart_grows) held

/-- The bits that the parts of an architecture drive, apart from those that its instances drive. -/
structure Drafted (hierarchy : Hierarchy) (netlist : Netlist) (targets : List Expr)
    (warnings : List String)
    : Prop where
  accounts
    : ∀ part ∈ netlist.parts,
        part.isInstantiated = false
        → ∀ net source,
            Netlist.Lands part .driver net source
            → netlist.DrivesPoint targets ⟨net, source.netBit⟩
              ∨ part.component.undrivenWarning ∈ warnings
              ∨ part.LacksOperand source.bit
  ties
    : ∀ part ∈ netlist.parts,
        ∀ endIndex resolved,
          part.OnBubble hierarchy.netlists endIndex .output
          → part.end? endIndex = some resolved
          → netlist.DrivesEnd targets resolved

theorem draftArchitecture_drafted {library : Library} {hierarchy : Hierarchy} {options : Options}
    (sound : hierarchy.Sound library) (analyzed : netlist ∈ hierarchy.netlists)
    (registered : Hierarchy.Registered hierarchy.netlists hierarchy.registry)
    (realizable : netlist.isRealizable = true) {labelCounts : List (String × Nat)}
    {architecture : Hdl.Architecture}
    (h
      : (draftArchitecture hierarchy options netlist).run ⟨[], .empty, labelCounts, .empty⟩
        = .ok (architecture, draft))
    : Drafted hierarchy netlist (architecture.statements.flatMap Statement.targets)
        draft.notes.warnings := by
  obtain ⟨_, placed, -, parts, notes, -, perm⟩ := draftArchitecture_places sound analyzed h
  have within : placed.sections.targets ⊆ architecture.statements.flatMap Statement.targets :=
    fun _ member => perm.symm.subset (List.mem_append_left _ member)
  rw [notes]
  constructor
  · intro part held notPlaced net source lands
    obtain ⟨before, after, step, grows⟩ := placeParts_step parts held
    have clocked (category : part.category = .clockSource) : part.clockTree.isSome = true := by
      have kind := Netlist.kind_of_clockSource category
      obtain ⟨tree, clocked, -⟩ := registered.sources netlist analyzed part held kind
      exact Option.isSome_iff_exists.mpr ⟨tree, clocked⟩
    obtain ⟨holds, -⟩ := sound.part analyzed held
    cases (placePart_accounts holds realizable held clocked notPlaced lands step).grows grows with
    | driven driven => exact .inl (driven.mono within)
    | warned told => exact .inr (.inl told)
    | lacking lacks => exact .inr (.inr lacks)
  · intro part held endIndex resolved bubble found
    obtain ⟨before, after, step, grows⟩ := placeParts_step parts held
    exact (placePart_ties bubble found step).mono (List.Subset.trans grows.targets within)

end SchematicHdl.Generation
