import SchematicHdl.Proofs.Generation.Failures

/-! Names that meet in one circuit. The identifier for a label that is respelled is marked with the
position of its component, so two such identifiers of a circuit never meet, and no run fails for
them: where names of a circuit are the same, one of them is a label as the user has spelled it, or
no label at all.
-/

namespace SchematicHdl

-----------------------------------------------------------------------------------------
-- Labels of a circuit
-----------------------------------------------------------------------------------------

/-- The label of the component is no identifier. -/
def Component.IsRespelled (component : Component) : Prop :=
  Identifier.IsRespelled (component.label.getD "")

/-- Where both of two labels are respelled, their identifiers differ, whatever the letter case. -/
def Component.RespelledApart (first second : Component) : Prop :=
  first.IsRespelled
  → second.IsRespelled
  → Text.foldCase first.identifier ≠ Text.foldCase second.identifier

/-- Respelled labels of a circuit differ because the positions of its components do. -/
theorem Circuit.WellFormed.respelledApart {circuit : Circuit} {position : Nat}
    (wellFormed : circuit.WellFormed position)
    : circuit.components.Pairwise Component.RespelledApart :=
  (List.pairwise_map.mp wellFormed.positions_distinct).imp fun apart firstOdd secondOdd same =>
    apart (Identifier.position_eq_of_foldCase firstOdd secondOdd same)

theorem Library.WellFormed.respelledApart {library : Library} (wellFormed : library.WellFormed)
    (position : Nat)
    : (library.circuitAt position).components.Pairwise Component.RespelledApart := by
  unfold circuitAt circuit?
  cases found : library.circuits[position]? with
  | none => exact .nil
  | some circuit => exact (wellFormed.circuits position circuit found).respelledApart

end SchematicHdl

namespace SchematicHdl.Generation

open Netlist (positions)
open Relation (ReflTransGen)
open SchematicHdl.Outcome

-----------------------------------------------------------------------------------------
-- Claimants that the user has named
-----------------------------------------------------------------------------------------

/-- The component after whose label the claimant is called. -/
def Claimant.namesake? : Claimant → Option Component
  | .pin component => some component
  | .labelled component => some component
  | _ => none

theorem Claimant.name_of_namesake? {claimant : Claimant} {component : Component}
    (namesake : claimant.namesake? = some component)
    : claimant.name = component.identifier := by
  cases claimant with
  | pin | labelled =>
      obtain rfl := Option.some.inj namesake
      rfl
  | clockTree | globalClock | bubbles | net | unlabelled | openWire => cases namesake

/-- The claimant is called after a label that is respelled. -/
def Claimant.IsRespelled (claimant : Claimant) : Prop :=
  ∃ component, claimant.namesake? = some component ∧ component.IsRespelled

variable {hierarchy : Hierarchy} {options : Options} {netlist : Netlist}

theorem namesakes_busClaimants (bus : Direction)
    : (busClaimants netlist bus).filterMap Claimant.namesake? = [] := by
  unfold busClaimants
  split <;> rfl

theorem namesakes_pinClaimants (direction : Direction)
    : (pinClaimants netlist direction).filterMap Claimant.namesake?
      = (netlist.parts.filter (fun part =>
          part.category = .pin direction && part.portName.isSome)).map Part.component := by
  rw [pinClaimants, List.filterMap_map, ← List.filterMap_eq_map]
  rfl

theorem namesakes_portClaimants (mode : ClockMode)
    : (portClaimants netlist mode).filterMap Claimant.namesake?
      = (pinClaimants netlist .input).filterMap Claimant.namesake?
        ++ (pinClaimants netlist .output).filterMap Claimant.namesake? := by
  have global
      : (if netlist.needsGlobalClock mode then [Claimant.globalClock] else []).filterMap
          Claimant.namesake?
        = [] := by
    split <;> rfl
  simp [portClaimants, namesakes_busClaimants, global, List.filterMap_map, Function.comp_def,
    Claimant.namesake?]

/-- Instances are called after placed components, each after one of its own; by induction on the
parts.
-/
theorem namesakes_units (counts : List (String × Nat)) (parts : List Part)
    : ((units hierarchy options counts parts).filterMap Claimant.namesake?).Sublist
        ((parts.filter isPlaced).map Part.component) := by
  induction parts generalizing counts with
  | nil => exact .refl []
  | cons part rest ih =>
      rw [units, List.filterMap_append]
      cases stem : instanceStem? hierarchy options part with
      | none =>
          simp only [partUnits, stem, List.filterMap_nil, List.nil_append]
          exact (ih _).trans (((List.sublist_cons_self part rest).filter _).map _)
      | some start =>
          have placed : isPlaced part = true := by
            unfold instanceStem? at stem
            by_contra unplaced
            simp [unplaced] at stem
          rw [List.filter_cons_of_pos placed, List.map_cons]
          simp only [partUnits, stem, unitOf]
          cases part.component.title? with
          | none => exact (ih _).cons _
          | some title => exact (ih _).cons_cons _

/-- A component gives its label to one claimant at most. -/
theorem namesakes_claimants (hierarchy : Hierarchy) (options : Options)
    (distinct : (netlist.parts.map Part.component).Nodup)
    (counts : List (String × Nat)) (openWires : Nat)
    : ((claimants hierarchy options netlist counts openWires).filterMap Claimant.namesake?).Nodup
      ∧ (claimants hierarchy options netlist counts openWires).filterMap Claimant.namesake?
        ⊆ netlist.parts.map Part.component := by
  have units
      : ((units hierarchy options counts netlist.parts).filterMap Claimant.namesake?).Sublist
          ((netlist.parts.filter isPlaced).map Part.component) :=
    namesakes_units counts netlist.parts
  rw [filterMap_claimants hierarchy options netlist counts openWires (fun _ _ => rfl) fun _ => rfl,
    namesakes_portClaimants, namesakes_pinClaimants, namesakes_pinClaimants]
  have among (keep : Part → Bool)
      : ((netlist.parts.filter keep).map Part.component).Sublist
          (netlist.parts.map Part.component) :=
    List.filter_sublist.map _
  -- the category of a component tells what it gives its label to
  have pins (direction : Direction)
      : ∀ component ∈ (netlist.parts.filter (fun part =>
          part.category = .pin direction && part.portName.isSome)).map Part.component,
            component.category = .pin direction := by
    intro component member
    obtain ⟨part, kept, rfl⟩ := List.mem_map.mp member
    simp only [List.mem_filter, Bool.and_eq_true, decide_eq_true_eq] at kept
    exact kept.2.1
  have placed (direction : Direction)
      : ∀ component ∈ (netlist.parts.filter isPlaced).map Part.component,
          component.category ≠ .pin direction := by
    intro component member category
    obtain ⟨part, kept, rfl⟩ := List.mem_map.mp member
    have isPlaced := (List.mem_filter.mp kept).2
    simp [Generation.isPlaced, Part.category, category] at isPlaced
  refine ⟨?_, ?_⟩
  · refine
      ((distinct.sublist (among _)).append (distinct.sublist (among _)) ?_).append
        (distinct.sublist (units.trans (among _))) ?_
    · intro component input output
      have same := (pins _ _ input).symm.trans (pins _ _ output)
      cases same
    · intro component pin unit
      rcases List.mem_append.mp pin with input | output
      · exact placed _ _ (units.subset unit) (pins _ _ input)
      · exact placed _ _ (units.subset unit) (pins _ _ output)
  · exact
      List.append_subset.mpr
        ⟨List.append_subset.mpr ⟨(among _).subset, (among _).subset⟩,
          (units.trans (among _)).subset⟩

variable {library : Library}

/-- Two claimants of a circuit that are called after labels are called after those of components at
different positions.
-/
theorem positions_differ (sound : hierarchy.Sound library) (analyzed : netlist ∈ hierarchy.netlists)
    {counts : List (String × Nat)} {openWires : Nat} {first second : Claimant}
    (order : [first, second].Sublist (claimants hierarchy options netlist counts openWires))
    {a b : Component} (here : first.namesake? = some a) (there : second.namesake? = some b)
    : a.position ≠ b.position := by
  have known := sound.netlists netlist analyzed
  have apart := (sound.wellFormed.circuits _ _ known.found).positions_distinct
  rw [← known.components_eq] at apart
  obtain ⟨distinct, within⟩ :=
    namesakes_claimants hierarchy options (.of_map _ apart) counts openWires
  have both
      : [a, b].Sublist
          ((claimants hierarchy options netlist counts openWires).filterMap
            Claimant.namesake?) := by
    simpa [here, there] using order.filterMap Claimant.namesake?
  have differ : a ≠ b := by simpa using distinct.sublist both
  refine fun same => differ (List.inj_on_of_nodup_map apart ?_ ?_ same)
  · exact within (both.subset List.mem_cons_self)
  · exact within (both.subset (List.mem_cons_of_mem _ List.mem_cons_self))

-----------------------------------------------------------------------------------------
-- Names that make a run fail
-----------------------------------------------------------------------------------------

/-- Two things in one circuit of the design are called alike and the run fails for them: two pins,
as is found when the design is analyzed, or two claimants of the architecture of a circuit that the
run comes to.
-/
inductive Collides [Machine] (library : Library) (top : CircuitRef) (options : Options)
    : Claimant → Claimant → GenerationError → Prop
  | pins {circuit first second key}
    (reached : ReflTransGen library.Instantiates top.position circuit)
    (order : [first, second].Sublist (library.circuitAt circuit).components)
    (firstKey : first.pinKey? = some key) (secondKey : second.pinKey? = some key)
    : Collides library top options (.pin first) (.pin second)
        (.identifierCollision second.identifier (library.circuitAt circuit).name first.describe
          second.describe)
  | claimants {hierarchy : Hierarchy} {target last openWires first second}
    (analyzed : Hierarchy.analyze library top = .ok hierarchy)
    (member : target ∈ hierarchy.netlists)
    (meets : MeetsBody library top options target last)
    (generated : target.circuit.customBody options.dialect = none)
    (order : [first, second].Sublist (claimants hierarchy options target [] openWires))
    (same : first.key = second.key)
    : Collides library top options first second
        (.identifierCollision second.name target.name first.what second.what)

/-- A run only fails for a name in the output library or for two things in one circuit. -/
theorem generate_collides [Machine] (grounded : Hierarchy.Grounded library) {top : CircuitRef}
    (known : library.Knows top) {name scope what other : String}
    (failed
      : (generate library top options).error = some (.identifierCollision name scope what other))
    : (∃ form last,
          Meets library top options form last
          ∧ Taken options.dialect form last (.identifierCollision name scope what other))
      ∨ ∃ first second,
        Collides library top options first second
          (.identifierCollision name scope what other) := by
  cases generate_failing grounded known failed with
  | refused refused =>
      cases refused with
      | inconsistent reached conflict =>
          cases conflict with
          | pins order firstKey secondKey =>
              exact .inr ⟨_, _, .pins reached order firstKey secondKey⟩
  | definition meets taken => exact .inl ⟨_, _, meets, taken⟩
  | names analyzed member meets generated clash =>
      cases clash with
      | between order same =>
          exact .inr ⟨_, _, .claimants analyzed member meets generated order same⟩

/-- Two things that are called alike do not both have labels that are respelled. -/
theorem Collides.not_respelled [Machine] (grounded : Hierarchy.Grounded library) {top : CircuitRef}
    {first second : Claimant} {cause : GenerationError}
    (collides : Collides library top options first second cause)
    : ¬(first.IsRespelled ∧ second.IsRespelled) := by
  rintro ⟨⟨a, here, firstOdd⟩, ⟨b, there, secondOdd⟩⟩
  cases collides with
  | @pins circuit _ _ key reached order firstKey secondKey =>
      obtain rfl := Option.some.inj here
      obtain rfl := Option.some.inj there
      have apart := grounded.wellFormed.respelledApart circuit
      refine List.pairwise_iff_forall_sublist.mp apart order firstOdd secondOdd ?_
      rw [Component.identifier_of_pinKey? firstKey, Component.identifier_of_pinKey? secondKey]
  | claimants analyzed member _ _ order same =>
      refine positions_differ (Hierarchy.sound_of_analyze grounded.wellFormed analyzed) member order
        here there (Identifier.position_eq_of_foldCase firstOdd secondOdd ?_)
      rwa [Claimant.key, Claimant.key, Claimant.name_of_namesake? here,
        Claimant.name_of_namesake? there] at same

/-- Three pins, two of them with labels that are respelled in the same way; the third one is called
like the first one after that.
-/
def spellingsFile : DesignFile where
  top := "main"
  circuits := [
    {
      name := "main",
      wires := [1],
      joins := [],
      splices := [],
      components := [
        ⟨"input_pin", some "x y", .empty, [some (.wire 0)], none, none, some 1, none⟩,
        ⟨"output_pin", some "x-y", .empty, [some (.wire 0)], none, none, some 1, none⟩,
        ⟨"output_pin", some "X_Y_0", .empty, [some (.wire 0)], none, none, some 1, none⟩
      ],
      customBodies := []
    }
  ]
  entities := []

end SchematicHdl.Generation
