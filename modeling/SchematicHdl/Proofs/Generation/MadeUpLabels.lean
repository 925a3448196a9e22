import SchematicHdl.Proofs.Generation.Collisions

/-! Labels that are made up for instances. Such a label is a stem for the kind of component with the
next number for it, so it is never the name of a clock, a bubble, a net or a dangling wire, nor is
it made up twice. But it may be the label of a pin or of another component, and then the circuit
cannot be generated.
-/

namespace SchematicHdl.Generation

open SchematicHdl.Outcome
open Identifier (numbered foldCase_numbered_inj foldCase_numbered_ne)

-----------------------------------------------------------------------------------------
-- Stems
-----------------------------------------------------------------------------------------

/-- The stems of the labels of instances. -/
def labelStems : List String :=
  ["PLEXERS", "REGISTER_FILE", "GATES", "HDL_ENTITY", "SUBCIRCUIT"]

/-- The stems of the other names that are numbered. -/
def nameStems : List String :=
  ["LOGISIM_CLOCK_TREE", "s_LOGISIM_NET", "s_LOGISIM_BUS", "s_LOGISIM_OPEN"]

theorem labelStems_apart
    : ∀ stem ∈ labelStems,
        (∀ other ∈ labelStems, Text.foldCase stem = Text.foldCase other → stem = other)
        ∧ ∀ other ∈ nameStems, Text.foldCase stem ≠ Text.foldCase other := by
  decide +kernel

variable {hierarchy : Hierarchy} {options : Options}

/-- What is realized has one of the stems, by cases on what realizes it. -/
theorem labelStem_mem {component : Component} {realization : Realization}
    (resolves
      : Realization.Resolves hierarchy options.clockMode options.dialect component realization)
    : realization.form.labelStem ∈ labelStems := by
  cases resolves with
  | @primitive type kind =>
      cases type with
      | multiplexer | demultiplexer | decoder | priorityEncoder =>
          show "PLEXERS" ∈ labelStems
          decide
      | register =>
          show "REGISTER_FILE" ∈ labelStems
          decide
      | and | or | xor | nand | nor | xnor | not | constant =>
          show "GATES" ∈ labelStems
          decide
  | subcircuit =>
      show "SUBCIRCUIT" ∈ labelStems
      decide
  | external =>
      show "HDL_ENTITY" ∈ labelStems
      decide

theorem instanceStem?_mem {part : Part} {stem : String}
    (made : instanceStem? hierarchy options part = some stem)
    : stem ∈ labelStems := by
  unfold instanceStem? at made
  split at made
  · split at made
    next realization resolved =>
      split at made
      · cases made
      · rw [← Option.some.inj made]
        exact labelStem_mem (Realization.resolve_resolves resolved)
    next => cases made
  · cases made

-----------------------------------------------------------------------------------------
-- Numbers
-----------------------------------------------------------------------------------------

namespace Claimant

/-- Stem and number of a label that is made up. -/
def serial? : Claimant → Option (String × Nat)
  | .unlabelled _ stem number => some (stem, number)
  | _ => none

/-- The claimant is an instance with a label that is made up. -/
def IsMadeUp (claimant : Claimant) : Prop := claimant.serial?.isSome

/-- The claimant is called after the label of a pin or an instance. -/
def IsGiven (claimant : Claimant) : Prop := claimant.namesake?.isSome

end Claimant

/-- The numbers of made up labels go up from those that were given out before, so no label is made
up twice; by induction on the parts.
-/
theorem serials_units (hierarchy : Hierarchy) (options : Options) (counts : List (String × Nat))
    (parts : List Part)
    : (∀ serial ∈ (units hierarchy options counts parts).filterMap Claimant.serial?,
          serial.1 ∈ labelStems ∧ (counts.lookup serial.1).getD 0 < serial.2)
      ∧ ((units hierarchy options counts parts).filterMap Claimant.serial?).Nodup := by
  induction parts generalizing counts with
  | nil => exact ⟨nofun, List.nodup_nil⟩
  | cons part rest ih =>
      rw [units, List.filterMap_append]
      cases made : instanceStem? hierarchy options part with
      | none =>
          simp only [partUnits, made, List.filterMap_nil, List.nil_append]
          exact ih counts
      | some stem =>
          simp only [partUnits, made, unitOf]
          cases part.component.title? with
          | some title => exact ih counts
          | none =>
              obtain ⟨later, distinct⟩ :=
                ih ((stem, (counts.lookup stem).getD 0 + 1) :: counts)
              simp only [List.filterMap_cons, Claimant.serial?, List.filterMap_nil,
                List.singleton_append, List.forall_mem_cons, List.nodup_cons]
              have above (serial : String × Nat)
                  (listed
                    : serial ∈ (units hierarchy options
                        ((stem, (counts.lookup stem).getD 0 + 1) :: counts) rest).filterMap
                          Claimant.serial?)
                  : (counts.lookup serial.1).getD 0 < serial.2
                    ∧ serial ≠ (stem, (counts.lookup stem).getD 0 + 1) := by
                have number := (later serial listed).2
                rw [List.lookup_cons] at number
                split at number
                next same =>
                  rw [eq_of_beq same]
                  refine ⟨Nat.lt_of_succ_lt number, fun again => ?_⟩
                  rw [again] at number
                  exact Nat.lt_irrefl _ number
                next other =>
                  refine ⟨number, fun again => ?_⟩
                  rw [again, beq_self_eq_true] at other
                  cases other
              exact
                ⟨⟨⟨instanceStem?_mem made, Nat.lt_succ_self _⟩, fun serial listed =>
                    ⟨(later serial listed).1, (above serial listed).1⟩⟩,
                  fun again => (above _ again).2 rfl, distinct⟩

/-- Only instances have labels that are made up. -/
theorem serials_claimants (netlist : Netlist) (counts : List (String × Nat)) (openWires : Nat)
    : (claimants hierarchy options netlist counts openWires).filterMap Claimant.serial?
      = (units hierarchy options counts netlist.parts).filterMap Claimant.serial? := by
  have ports : (portClaimants netlist options.clockMode).filterMap Claimant.serial? = [] := by
    refine List.filterMap_eq_nil_iff.mpr fun claimant listed => ?_
    cases claimant with
    | unlabelled => simp [portClaimants, busClaimants, pinClaimants] at listed
    | clockTree | globalClock | bubbles | pin | net | labelled | openWire => rfl
  rw [filterMap_claimants hierarchy options netlist counts openWires (fun _ _ => rfl) fun _ => rfl,
    ports, List.nil_append]

-----------------------------------------------------------------------------------------
-- Names that are not given by the user
-----------------------------------------------------------------------------------------

theorem openWireName_eq (wire : Nat)
    : openWireName wire = numbered "s_LOGISIM_OPEN" wire :=
  congrArg (· ++ toString wire) (show "s_LOGISIM_OPEN_" = "s_LOGISIM_OPEN" ++ "_" by decide +kernel)

theorem exists_nameAt_eq (nets : Net.Table) (position : Nat)
    : ∃ stem ∈ nameStems, nets.nameAt position = numbered stem position := by
  unfold Net.Table.nameAt Net.signalName
  split
  · exact
      ⟨"s_LOGISIM_NET", by decide,
        congrArg (· ++ toString position)
          (show "s_LOGISIM_NET_" = "s_LOGISIM_NET" ++ "_" by decide +kernel)⟩
  · exact
      ⟨"s_LOGISIM_BUS", by decide,
        congrArg (· ++ toString position)
          (show "s_LOGISIM_BUS_" = "s_LOGISIM_BUS" ++ "_" by decide +kernel)⟩

/-- A name that is the same as a made up label is made up with the same number or given by the user,
by cases on what it is the name of.
-/
theorem serial_of_key {stem : String} {number : Nat} (listed : stem ∈ labelStems)
    {claimant : Claimant} (known : ∀ serial, claimant.serial? = some serial → serial.1 ∈ labelStems)
    (own : claimant.namesake? = none)
    (same : Text.foldCase (numbered stem number) = claimant.key)
    : claimant.serial? = some (stem, number) := by
  obtain ⟨labels, others⟩ := labelStems_apart stem listed
  cases claimant with
  | pin | labelled => cases own
  | clockTree tree =>
      rw [Claimant.key, Claimant.name, Netlist.clockTreeName_eq] at same
      exact absurd (foldCase_numbered_inj same).1 (others _ (by decide))
  | globalClock =>
      have fixed := Netlist.fixedNames_unnumbered globalClockName List.mem_cons_self
      exact absurd same (foldCase_numbered_ne fixed stem number)
  | bubbles bus =>
      have fixed : bubblePort bus ∈ Netlist.fixedNames := by cases bus <;> decide
      exact absurd same (foldCase_numbered_ne (Netlist.fixedNames_unnumbered _ fixed) stem number)
  | net nets position =>
      obtain ⟨other, listed, name⟩ := exists_nameAt_eq nets position
      rw [Claimant.key, Claimant.name, name] at same
      exact absurd (foldCase_numbered_inj same).1 (others _ listed)
  | openWire wire =>
      rw [Claimant.key, Claimant.name, openWireName_eq] at same
      exact absurd (foldCase_numbered_inj same).1 (others _ (by decide))
  | unlabelled component other position =>
      obtain ⟨stems, rfl⟩ := foldCase_numbered_inj same
      rw [Claimant.serial?, labels _ (known _ rfl) stems]

/-- Where the two are called alike and one of them has a made up label, the other one is called
after a label of the user.
-/
def Claimant.GivenIfMadeUp (first second : Claimant) : Prop :=
  first.key = second.key
  → (first.IsMadeUp → second.IsGiven) ∧ (second.IsMadeUp → first.IsGiven)

/-- In a circuit, made up labels are the same as labels of the user only. -/
theorem claimants_givenIfMadeUp (hierarchy : Hierarchy) (options : Options) (netlist : Netlist)
    (counts : List (String × Nat)) (openWires : Nat)
    : (claimants hierarchy options netlist counts openWires).Pairwise Claimant.GivenIfMadeUp := by
  obtain ⟨listed, distinct⟩ := serials_units hierarchy options counts netlist.parts
  rw [← serials_claimants netlist counts openWires] at listed distinct
  have known (claimant : Claimant)
      (member : claimant ∈ claimants hierarchy options netlist counts openWires)
      (serial : String × Nat) (here : claimant.serial? = some serial)
      : serial.1 ∈ labelStems :=
    (listed serial (List.mem_filterMap.mpr ⟨claimant, member, here⟩)).1
  -- a label that is not given by the user is made up with the same number, but numbers differ
  have given {first second : Claimant} (madeUp : first.IsMadeUp)
      (memberFirst : first ∈ claimants hierarchy options netlist counts openWires)
      (memberSecond : second ∈ claimants hierarchy options netlist counts openWires)
      (apart : first.serial? ≠ second.serial?) (same : first.key = second.key)
      : second.IsGiven := by
    cases own : second.namesake? with
    | some component => simp [Claimant.IsGiven, own]
    | none =>
        cases first with
        | unlabelled component stem number =>
            have again :=
              serial_of_key (known _ memberFirst _ rfl) (known _ memberSecond) own same
            exact absurd again.symm apart
        | clockTree | globalClock | bubbles | pin | net | labelled | openWire => cases madeUp
  refine List.pairwise_iff_forall_sublist.mpr fun {first second} order same => ?_
  have memberFirst := order.subset List.mem_cons_self
  have memberSecond := order.subset (List.mem_cons_of_mem _ List.mem_cons_self)
  have apart (madeUp : first.IsMadeUp ∨ second.IsMadeUp) : first.serial? ≠ second.serial? := by
    intro equal
    have both := distinct.sublist (order.filterMap Claimant.serial?)
    cases serial : second.serial? with
    | none => simp [Claimant.IsMadeUp, equal, serial] at madeUp
    | some entry => simp [equal, serial] at both
  exact
    ⟨fun madeUp => given madeUp memberFirst memberSecond (apart (.inl madeUp)) same,
      fun madeUp =>
        given madeUp memberSecond memberFirst (apart (.inr madeUp)).symm same.symm⟩

-----------------------------------------------------------------------------------------
-- Runs
-----------------------------------------------------------------------------------------

theorem Collides.givenIfMadeUp [Machine] {library : Library} {top : CircuitRef}
    {first second : Claimant}
    {cause : GenerationError} (collides : Collides library top options first second cause)
    : first.GivenIfMadeUp second := by
  cases collides with
  | pins => exact fun _ => ⟨nofun, nofun⟩
  | @claimants hierarchy target _ openWires _ _ _ _ _ _ order same =>
      have apart := claimants_givenIfMadeUp hierarchy options target [] openWires
      exact List.pairwise_iff_forall_sublist.mp apart order

/-- Made up labels are fresh among the names that the user has not given. In the architecture of any
circuit, a made up label is never the name of a port for clocks or bubbles, of a net or of a
dangling wire, nor another made up label, whatever the letter case. Where a run for a design from a
file fails for a made up label, the same name is given by the user to a pin or an instance.
-/
theorem generate_madeUpApart [Machine] {library : Library} {file : DesignFile} {top : CircuitRef}
    (elaborated : file.elaborate = .ok (library, top))
    : (∀ hierarchy options netlist counts openWires,
          (claimants hierarchy options netlist counts openWires).Pairwise Claimant.GivenIfMadeUp)
      ∧ ∀ options name scope what other,
          (generate library top options).error = some (.identifierCollision name scope what other)
          → (∃ form last,
                Meets library top options form last
                ∧ Taken options.dialect form last (.identifierCollision name scope what other))
            ∨ ∃ first second,
              Collides library top options first second
                (.identifierCollision name scope what other)
              ∧ first.GivenIfMadeUp second := by
  obtain ⟨grounded, known⟩ := grounded_of_elaborate elaborated
  refine ⟨claimants_givenIfMadeUp, fun options name scope what other failed => ?_⟩
  refine (generate_collides grounded known failed).imp_right ?_
  rintro ⟨first, second, collides⟩
  exact ⟨first, second, collides, collides.givenIfMadeUp⟩

/-- Two decoders, of which one has a label like those that are made up. -/
def decodersFile : DesignFile where
  top := "main"
  circuits := [
    {
      name := "main",
      wires := [1, 1, 1, 1, 1],
      joins := [],
      splices := [],
      components := [
        ⟨"input_pin", some "a", .empty, [some (.wire 0)], none, none, some 1, none⟩,
        ⟨"decoder", some "PLEXERS_1", .empty, [some (.wire 1), some (.wire 2), some (.wire 0)],
          none, none, none, none⟩,
        ⟨"decoder", none, .empty, [some (.wire 3), some (.wire 4), some (.wire 0)], none, none,
          none, none⟩
      ],
      customBodies := []
    }
  ]
  entities := []

/-- The failure for the two labels. -/
def decodersCollision : GenerationError :=
  .identifierCollision "PLEXERS_1" "main" "Decoder \"PLEXERS_1\"" "Decoder #2"

theorem decoders_fail
    : ∃ library top circuit,
        decodersFile.elaborate = .ok (library, top)
        ∧ library.circuits = [circuit]
        ∧ circuit.components.map (fun component => (component.label, component.describe))
          = [(some "a", "Input Pin \"a\""), (some "PLEXERS_1", "Decoder \"PLEXERS_1\""),
              (none, "Decoder #2")]
        ∧ (generate library top registerOptions).error = some decodersCollision := by
  have outcome
      : decodersFile.elaborate.toOption.map (fun design =>
          (design.1.circuits.map (fun circuit =>
              circuit.components.map (fun component => (component.label, component.describe))),
            (generate design.1 design.2 registerOptions).error))
        = some
            ([[(some "a", "Input Pin \"a\""), (some "PLEXERS_1", "Decoder \"PLEXERS_1\""),
                (none, "Decoder #2")]],
              some decodersCollision) := by
    decide +kernel
  obtain ⟨⟨library, top⟩, found, values⟩ := Option.map_eq_some_iff.mp outcome
  obtain ⟨contents, failed⟩ := Prod.mk.inj values
  obtain ⟨circuit, single, labels⟩ := List.map_eq_singleton_iff.mp contents
  exact ⟨library, top, circuit, toOption_eq_some.mp found, single, labels, failed⟩

/-- The label of the user is what the made up label meets. -/
theorem decoders_madeUpApart
    : ∃ library top first second,
        decodersFile.elaborate = .ok (library, top)
        ∧ Collides library top registerOptions first second decodersCollision
        ∧ first.GivenIfMadeUp second := by
  obtain ⟨library, top, _, elaborated, -, -, failed⟩ := decoders_fail
  rcases (generate_madeUpApart elaborated).2 _ _ _ _ _ failed with met | ⟨first, second, found⟩
  · obtain ⟨form, last, -, taken⟩ := met
    exact absurd taken.scope_eq (by decide)
  · exact ⟨library, top, first, second, elaborated, found⟩

/-- A component without a label makes a run fail: the label that is made up for it is the label of
another component.
-/
theorem decoders_labelsCollide
    : ∃ library top circuit component,
        decodersFile.elaborate = .ok (library, top)
        ∧ circuit ∈ library.circuits
        ∧ component ∈ circuit.components
        ∧ component.label = none
        ∧ (generate library top registerOptions).error
          = some
              (.identifierCollision "PLEXERS_1" "main" "Decoder \"PLEXERS_1\""
                component.describe) := by
  obtain ⟨library, top, circuit, elaborated, single, labels, failed⟩ := decoders_fail
  have listed
      : (none, "Decoder #2")
        ∈ circuit.components.map (fun component => (component.label, component.describe)) := by
    simp [labels]
  obtain ⟨component, member, same⟩ := List.mem_map.mp listed
  obtain ⟨unlabelled, described⟩ := Prod.mk.inj same
  refine ⟨library, top, circuit, component, elaborated, by simp [single], member, unlabelled, ?_⟩
  rw [failed, described]
  rfl

end SchematicHdl.Generation
