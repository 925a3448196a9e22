import SchematicHdl.Generation.Structure
import SchematicHdl.Proofs.Netlist.Expressions

/-! Drafts of architectures. A step of a draft claims names that are new, opens dangling wires and
adds statements to the sections: instances and assignments, whose two sides have one width if the
bubble busses of the circuit hold the ranges of its parts.
-/

namespace SchematicHdl.Generation

open Hdl (Instance Scope SignalDecl Statement)
open SchematicHdl.Outcome

/-- Statements are added to a section: the given instances, and assignments between them. -/
def Extends (fits : Prop) (scope : Scope) (instances : List Instance)
    (before after : List Statement)
    : Prop :=
  ∃ added,
    after = before ++ added
    ∧ added.filterMap Statement.instance? = instances
    ∧ ∀ statement ∈ added, statement.instance? = none → statement.AssignsIf fits scope

namespace Extends

variable {fits : Prop} {scope wider : Scope} {instances more : List Instance}
  {before middle after : List Statement}

theorem refl (fits : Prop) (scope : Scope) (statements : List Statement)
    : Extends fits scope [] statements statements :=
  ⟨[], by simp, rfl, by simp⟩

theorem trans (first : Extends fits scope instances before middle)
    (second : Extends fits scope more middle after)
    : Extends fits scope (instances ++ more) before after := by
  obtain ⟨added, rfl, rfl, each⟩ := first
  obtain ⟨others, rfl, rfl, later⟩ := second
  refine ⟨added ++ others, List.append_assoc .., List.filterMap_append .., ?_⟩
  intro statement member
  exact (List.mem_append.mp member).elim (each statement) (later statement)

theorem mono (extended : Extends fits scope instances before after)
    (names : scope.names ⊆ wider.names) (generics : wider.generics = scope.generics)
    : Extends fits wider instances before after := by
  obtain ⟨added, rfl, rfl, each⟩ := extended
  refine ⟨added, rfl, rfl, fun statement member other => ?_⟩
  exact (each statement member other).mono names generics

theorem assigns {added : List Statement}
    (each : ∀ statement ∈ added, statement.AssignsIf fits scope)
    : Extends fits scope [] before (before ++ added) := by
  refine ⟨added, rfl, ?_, fun statement member _ => each statement member⟩
  exact
    List.filterMap_eq_nil_iff.mpr fun statement member =>
      (each statement member).instance?_eq_none

theorem instantiate (inst : Instance)
    : Extends fits scope [inst] before (before ++ [.instantiate inst]) :=
  ⟨[.instantiate inst], rfl, rfl, by simp [Statement.instance?]⟩

theorem instances_eq (extended : Extends fits scope instances [] after)
    : after.filterMap Statement.instance? = instances := by
  obtain ⟨added, rfl, found, -⟩ := extended
  simpa using found

theorem structural (extended : Extends fits scope instances [] after)
    (each : ∀ inst ∈ instances, (Statement.instantiate inst).Structural fits scope)
    : ∀ statement ∈ after, statement.Structural fits scope := by
  obtain ⟨added, rfl, rfl, assigns⟩ := extended
  intro statement member
  cases found : statement.instance? with
  | none => exact (assigns statement member found).structural
  | some inst =>
      rw [Statement.eq_of_instance? found]
      exact each inst (List.mem_filterMap.mpr ⟨statement, member, found⟩)

end Extends

/-- Every section is extended, two of them by instances. -/
structure Sections.Extends (fits : Prop) (scope : Scope) (normal subcircuits : List Instance)
    (before after : Sections)
    : Prop where
  clocks : Generation.Extends fits scope [] before.clocks after.clocks
  wiring : Generation.Extends fits scope [] before.wiring after.wiring
  pins : Generation.Extends fits scope [] before.pins after.pins
  inlined : Generation.Extends fits scope [] before.inlined after.inlined
  normal : Generation.Extends fits scope normal before.normal after.normal
  subcircuits : Generation.Extends fits scope subcircuits before.subcircuits after.subcircuits

namespace Sections.Extends

variable {fits : Prop} {scope wider : Scope}
  {normal subcircuits normal' subcircuits' : List Instance} {before middle after : Sections}

theorem refl (fits : Prop) (scope : Scope) (sections : Sections)
    : sections.Extends fits scope [] [] sections where
  clocks := .refl _ _ _
  wiring := .refl _ _ _
  pins := .refl _ _ _
  inlined := .refl _ _ _
  normal := .refl _ _ _
  subcircuits := .refl _ _ _

theorem trans (first : before.Extends fits scope normal subcircuits middle)
    (second : middle.Extends fits scope normal' subcircuits' after)
    : before.Extends fits scope (normal ++ normal') (subcircuits ++ subcircuits') after where
  clocks := first.clocks.trans second.clocks
  wiring := first.wiring.trans second.wiring
  pins := first.pins.trans second.pins
  inlined := first.inlined.trans second.inlined
  normal := first.normal.trans second.normal
  subcircuits := first.subcircuits.trans second.subcircuits

theorem mono (extended : before.Extends fits scope normal subcircuits after)
    (names : scope.names ⊆ wider.names) (generics : wider.generics = scope.generics)
    : before.Extends fits wider normal subcircuits after where
  clocks := extended.clocks.mono names generics
  wiring := extended.wiring.mono names generics
  pins := extended.pins.mono names generics
  inlined := extended.inlined.mono names generics
  normal := extended.normal.mono names generics
  subcircuits := extended.subcircuits.mono names generics

end Sections.Extends

/-- The claimed names, case-folded. -/
def Draft.claimed (draft : Draft) : List String := draft.names.map Prod.fst

/-- Names are claimed that were not claimed before, if nothing was claimed twice so far. -/
structure Claims (names : List String) (draft draft' : Draft) : Prop where
  claimed : draft'.claimed.Perm (names.map Text.foldCase ++ draft.claimed)
  distinct : draft.claimed.Nodup → draft'.claimed.Nodup

namespace Claims

variable {draft middle draft' : Draft} {names more : List String}

theorem refl (same : draft'.names = draft.names) : Claims [] draft draft' := by
  have claimed : draft'.claimed = draft.claimed := congrArg (List.map Prod.fst) same
  exact ⟨by simp [claimed], by simp [claimed]⟩

theorem trans (first : Claims names draft middle) (second : Claims more middle draft')
    : Claims (names ++ more) draft draft' where
  claimed := by
    refine second.claimed.trans ((first.claimed.append_left _).trans ?_)
    rw [List.map_append, ← List.append_assoc]
    exact List.perm_append_comm.append_right _
  distinct := second.distinct ∘ first.distinct

theorem perm (claims : Claims names draft draft') (same : names.Perm more)
    : Claims more draft draft' where
  claimed := claims.claimed.trans ((same.map _).append_right _)
  distinct := claims.distinct

end Claims

theorem claim_run_eq_ok {scope name what : String} {draft draft' : Draft}
    : (claim scope name what).run draft = .ok ((), draft')
      ↔ draft.names.lookup (Text.foldCase name) = none
        ∧ draft' = { draft with names := (Text.foldCase name, what) :: draft.names } := by
  simp only [claim, run_bind_eq_ok, run_get_eq_ok, Prod.mk.injEq]
  constructor
  · rintro ⟨_, _, ⟨rfl, rfl⟩, h⟩
    split at h
    · exact absurd h run_throw_ne_ok
    · next fresh => exact ⟨fresh, (Prod.mk.inj (run_set_eq_ok.1 h)).2.symm⟩
  · rintro ⟨fresh, rfl⟩
    refine ⟨draft, draft, ⟨rfl, rfl⟩, ?_⟩
    rw [fresh]
    exact run_set_eq_ok.2 rfl

theorem claim_run_eq_error {scope name what : String} {draft : Draft} {cause : GenerationError}
    (failed : (claim scope name what).run draft = .error cause)
    : ∃ first,
        draft.names.lookup (Text.foldCase name) = some first
        ∧ cause = .identifierCollision name scope first what := by
  rcases run_bind_eq_error.1 failed with got | ⟨_, _, got, failed⟩
  · cases got
  · cases got
    split at failed
    · next first found =>
        cases failed
        exact ⟨first, found, rfl⟩
    · cases failed

theorem claims_of_lookup {draft draft' : Draft} {name what : String}
    (fresh : draft.names.lookup (Text.foldCase name) = none)
    (names : draft'.names = (Text.foldCase name, what) :: draft.names)
    : Claims [name] draft draft' := by
  have claimed : draft'.claimed = Text.foldCase name :: draft.claimed := by
    rw [Draft.claimed, names]
    rfl
  refine ⟨by rw [claimed]; exact .refl _, fun distinct => ?_⟩
  rw [claimed]
  refine List.nodup_cons.mpr ⟨fun member => ?_, distinct⟩
  obtain ⟨entry, listed, same⟩ := List.mem_map.mp member
  have differs := List.lookup_eq_none_iff.mp fresh entry listed
  simp [same] at differs

/-- Names that are claimed one after the other, by induction on the items that they are for. -/
theorem claims_of_forM {α : Type} {items : List α} {nameOf : α → String} {what : α → String}
    {scope : String} {draft draft' : Draft}
    (h
      : (items.forM (fun item => claim scope (nameOf item) (what item))).run draft
        = .ok ((), draft'))
    : Claims (items.map nameOf) draft draft'
      ∧ draft'.notes = draft.notes
      ∧ draft'.sections = draft.sections := by
  have chained := forM_run_eq_ok.1 h
  clear h
  induction chained with
  | nil => exact ⟨.refl rfl, rfl, rfl⟩
  | cons head _ ih =>
      obtain ⟨fresh, rfl⟩ := claim_run_eq_ok.1 head
      exact ⟨(claims_of_lookup fresh rfl).trans ih.1, ih.2⟩

/-- Declared signals have claimed their names, by induction on the items that they are for. -/
theorem claims_of_mapM {α : Type} {items : List α} (what : α → String)
    (declaration : α → SignalDecl) {scope : String} {draft draft' : Draft}
    {signals : List SignalDecl}
    (h
      : (items.mapM (fun item => do
          claim scope (declaration item).name (what item)
          return declaration item)).run draft
        = .ok (signals, draft'))
    : Claims (signals.map SignalDecl.name) draft draft'
      ∧ draft'.notes = draft.notes
      ∧ draft'.sections = draft.sections
      ∧ signals = items.map declaration := by
  have threaded := mapM_run_eq_ok.1 h
  clear h
  induction threaded with
  | nil => exact ⟨.refl rfl, rfl, rfl, rfl⟩
  | cons head _ ih =>
      simp only [run_bind_eq_ok, run_pure_eq_ok, Prod.mk.injEq] at head
      obtain ⟨_, _, head, rfl, rfl⟩ := head
      obtain ⟨fresh, rfl⟩ := claim_run_eq_ok.1 head
      exact ⟨(claims_of_lookup fresh rfl).trans ih.1, ih.2.1, ih.2.2.1, by rw [ih.2.2.2]; rfl⟩

/-- What a step adds to the draft of an architecture: instances with labels that are new, next to
assignments and dangling wires.
-/
structure Adds (netlist : Netlist) (mode : ClockMode) (normal subcircuits : List Instance)
    (draft draft' : Draft)
    : Prop where
  openWires : draft.notes.openWires ⊆ draft'.notes.openWires
  sections
    : draft.sections.Extends netlist.BubblesHeld (netlist.scope mode draft'.notes.openWires) normal
        subcircuits draft'.sections
  labels : Claims ((normal ++ subcircuits).map Instance.label) draft draft'

namespace Adds

variable {netlist : Netlist} {mode : ClockMode}
  {normal subcircuits normal' subcircuits' : List Instance} {draft middle draft' : Draft}

theorem trans (first : Adds netlist mode normal subcircuits draft middle)
    (second : Adds netlist mode normal' subcircuits' middle draft')
    : Adds netlist mode (normal ++ normal') (subcircuits ++ subcircuits') draft draft' where
  openWires := List.Subset.trans first.openWires second.openWires
  sections :=
    (first.sections.mono (Netlist.scope_mono second.openWires) rfl).trans second.sections
  labels := by
    refine (first.labels.trans second.labels).perm ?_
    rw [← List.map_append]
    refine List.Perm.map _ ?_
    simp only [List.append_assoc]
    refine List.Perm.append_left _ ?_
    simp only [← List.append_assoc]
    exact List.perm_append_comm.append_right _

/-- A step that adds no instance can follow. -/
theorem followed (adds : Adds netlist mode normal subcircuits draft middle)
    (later : Adds netlist mode [] [] middle draft')
    : Adds netlist mode normal subcircuits draft draft' := by
  simpa only [List.append_nil] using adds.trans later

/-- Nothing but warnings and counts of labels. -/
theorem none (openWires : draft'.notes.openWires = draft.notes.openWires)
    (sections : draft'.sections = draft.sections) (names : draft'.names = draft.names)
    : Adds netlist mode [] [] draft draft' where
  openWires := openWires ▸ List.Subset.refl _
  sections := sections ▸ .refl _ _ _
  labels := .refl names

end Adds

end SchematicHdl.Generation
