import SchematicHdl.Proofs.DesignFile.Contents
import SchematicHdl.Proofs.Generation.Moving

/-! Design files that list the same circuits in another order, with or without others that the top
circuit does not reach. The libraries that they describe hold the same circuits at other positions,
so they come to the same files.
-/

namespace SchematicHdl

open Generation (OutputFile Options defaultOutputDirectory generate)
open Outcome (toOption_eq_some)

namespace DesignFile

-----------------------------------------------------------------------------------------
-- Reached circuits
-----------------------------------------------------------------------------------------

/-- A circuit instantiates another one. -/
def Places (file : DesignFile) (outer inner : String) : Prop :=
  ∃ entry ∈ file.circuits,
    entry.name = outer
    ∧ ∃ component ∈ entry.components,
      component.kind = .circuit ∧ component.circuit.getD "" = inner

/-- The circuit is the top circuit or somewhere below it. -/
def Reaches (file : DesignFile) (name : String) : Prop :=
  Relation.ReflTransGen file.Places file.top name

/-- The other file lists the same circuits in any order, but for some that neither top circuit
reaches.
-/
structure Rearranges (file other : DesignFile) : Prop where
  top : other.top = file.top
  entities : other.entities = file.entities
  circuits
    : ∃ shared dropped added,
        file.circuits.Perm (shared ++ dropped)
        ∧ other.circuits.Perm (shared ++ added)
        ∧ (∀ entry ∈ dropped, ¬file.Reaches entry.name)
        ∧ ∀ entry ∈ added, ¬other.Reaches entry.name

variable {file other : DesignFile}

/-- Names that hold the top circuit and whatever their circuits instantiate hold all that is
reached, by induction on the way down.
-/
theorem Reaches.mem {name : String} (reaches : file.Reaches name) {names : List String}
    (top : file.top ∈ names)
    (closed
      : ∀ entry ∈ file.circuits,
          entry.name ∈ names
          → ∀ component ∈ entry.components,
            component.kind = .circuit → component.circuit.getD "" ∈ names)
    : name ∈ names := by
  induction reaches with
  | refl => exact top
  | tail _ places ih =>
      obtain ⟨entry, listed, rfl, component, placed, kind, rfl⟩ := places
      exact closed entry listed ih component placed kind

/-- A circuit of a checked file is found under its name. -/
theorem Checked.findCircuit? [Arithmetic] (checked : file.Checked) {entry : CircuitEntry}
    (listed : entry ∈ file.circuits)
    : file.findCircuit? entry.name = some entry := by
  cases found : file.findCircuit? entry.name with
  | none => simpa using List.find?_eq_none.mp found entry listed
  | some first =>
      have named : first.name = entry.name := by simpa using List.find?_some found
      have member := List.mem_of_find?_eq_some found
      rw [List.inj_on_of_nodup_map checked.circuitNames member listed named]

/-- What a checked file instantiates is listed. -/
theorem Checked.placed [Arithmetic] (checked : file.Checked) {outer inner : String}
    (places : file.Places outer inner)
    : (file.findCircuit? inner).isSome := by
  obtain ⟨entry, listed, -, component, placed, kind, rfl⟩ := places
  obtain ⟨position, found⟩ := List.getElem?_of_mem placed
  obtain ⟨count, known⟩ := checked.components entry listed position component found
  have ends := known.ends
  unfold endCount at ends
  rw [kind] at ends
  dsimp only at ends
  split at ends
  · next found => rw [found]; rfl
  · cases ends

/-- What a checked file reaches is listed. -/
theorem Checked.reached [Arithmetic] (checked : file.Checked) {name : String}
    (reaches : file.Reaches name)
    : ∃ entry, file.findCircuit? name = some entry := by
  refine Option.isSome_iff_exists.mp ?_
  cases reaches with
  | refl => exact checked.top
  | tail _ places => exact checked.placed places

/-- The other file lists a reached circuit by the same entry. -/
theorem Rearranges.findCircuit? [Arithmetic] (rearranges : file.Rearranges other)
    (otherChecked : other.Checked) {entry : CircuitEntry} (listed : entry ∈ file.circuits)
    (reaches : file.Reaches entry.name)
    : other.findCircuit? entry.name = some entry := by
  obtain ⟨shared, dropped, added, perm, otherPerm, unreached, -⟩ := rearranges.circuits
  refine otherChecked.findCircuit? (otherPerm.mem_iff.mpr ?_)
  rcases List.mem_append.mp (perm.mem_iff.mp listed) with both | gone
  · exact List.mem_append_left _ both
  · exact absurd reaches (unreached entry gone)

-----------------------------------------------------------------------------------------
-- Positions
-----------------------------------------------------------------------------------------

/-- Where the other file lists the circuit at a position. A circuit that it does not list is moved
behind all that it lists.
-/
def shift (file other : DesignFile) (position : Nat) : Nat :=
  match file.circuits[position]? with
  | some entry =>
      if (other.findCircuit? entry.name).isSome then other.positionOf entry.name
      else other.circuits.length + position
  | none => other.circuits.length + position

theorem shift_listed {position : Nat} {entry counterpart : CircuitEntry}
    (listed : file.circuits[position]? = some entry)
    (found : other.findCircuit? entry.name = some counterpart)
    : file.shift other position = other.positionOf entry.name := by
  simp [shift, listed, found]

theorem positionOf_lt {name : String} {entry : CircuitEntry}
    (found : file.findCircuit? name = some entry)
    : file.positionOf name < file.circuits.length :=
  (List.getElem?_eq_some_iff.mp (findCircuit?_eq_some found).1).1

/-- A circuit is moved to where its entry is listed, or behind all entries. -/
theorem shift_cases (file other : DesignFile) (position : Nat)
    : (∃ entry counterpart,
        file.circuits[position]? = some entry
        ∧ other.findCircuit? entry.name = some counterpart
        ∧ file.shift other position = other.positionOf entry.name)
      ∨ file.shift other position = other.circuits.length + position := by
  cases listed : file.circuits[position]? with
  | none => exact .inr (by simp [shift, listed])
  | some entry =>
      cases found : other.findCircuit? entry.name with
      | none => exact .inr (by simp [shift, listed, found])
      | some counterpart =>
          exact .inl ⟨entry, counterpart, rfl, found, shift_listed listed found⟩

/-- Different circuits are moved to different positions. -/
theorem Checked.shift_injective [Arithmetic] (checked : file.Checked)
    : Function.Injective (file.shift other) := by
  intro i j same
  rcases file.shift_cases other i with ⟨a, foundA, listedA, thereA, movedA⟩ | movedA
    <;> rcases file.shift_cases other j with ⟨b, foundB, listedB, thereB, movedB⟩ | movedB
    <;> rw [movedA, movedB] at same
  · have entryA := (findCircuit?_eq_some thereA).1
    rw [same, (findCircuit?_eq_some thereB).1] at entryA
    have names : a.name = b.name := by
      rw [← (findCircuit?_eq_some thereA).2, ← (findCircuit?_eq_some thereB).2,
        Option.some.inj entryA]
    have atA : (file.circuits.map CircuitEntry.name)[i]? = some a.name := by simp [listedA]
    have atB : (file.circuits.map CircuitEntry.name)[j]? = some b.name := by simp [listedB]
    rw [← names] at atB
    have inside := (List.getElem?_eq_some_iff.mp atA).1
    exact (List.getElem?_inj inside checked.circuitNames).mp (atA.trans atB.symm)
  · have inside := positionOf_lt thereA
    omega
  · have inside := positionOf_lt thereB
    omega
  · omega

-----------------------------------------------------------------------------------------
-- Contents
-----------------------------------------------------------------------------------------

theorem library_circuitAt {position : Nat} {entry : CircuitEntry}
    (listed : file.circuits[position]? = some entry)
    : file.library.circuitAt position = entry.circuit file.names position := by
  rw [Library.circuitAt, library_circuit?, listed]
  rfl

section Moving

variable [Arithmetic] (rearranges : file.Rearranges other) (checked : file.Checked)
  (otherChecked : other.Checked)
include rearranges checked otherChecked

/-- References to a reached circuit are moved to references in the other file. -/
theorem Rearranges.refOf_moved {name : String} (reaches : file.Reaches name)
    : (file.refOf name).moved (file.shift other) = other.refOf name := by
  obtain ⟨entry, found⟩ := checked.reached reaches
  obtain ⟨listed, rfl⟩ := findCircuit?_eq_some found
  have otherFound := rearranges.findCircuit? otherChecked (List.mem_of_getElem? listed) reaches
  rw [CircuitRef.moved, refOf, shift_listed listed otherFound]
  rfl

/-- A component of a reached circuit is the same in both libraries, by cases on its kind. -/
theorem Rearranges.component_moved {entry : CircuitEntry} (listed : entry ∈ file.circuits)
    (reaches : file.Reaches entry.name) {component : ComponentEntry}
    (placed : component ∈ entry.components) (position : Nat)
    : component.component other.names position
      = (component.component file.names position).moved (file.shift other) := by
  have kinds
      : component.kindIn other.names = (component.kindIn file.names).moved (file.shift other) := by
    unfold ComponentEntry.kindIn
    cases kind : component.kind with
    | circuit =>
        have below : file.Reaches (component.circuit.getD "") :=
          reaches.tail ⟨entry, listed, rfl, component, placed, kind, rfl⟩
        obtain ⟨child, found⟩ := checked.reached below
        have childListed := List.mem_of_find?_eq_some found
        have spelled := (findCircuit?_eq_some found).2
        have otherFound := rearranges.findCircuit? otherChecked childListed (spelled ▸ below)
        rw [spelled] at otherFound
        dsimp only
        rw [file.names_stand.circuits _ (by simp [found]),
          other.names_stand.circuits _ (by simp [otherFound]),
          ← rearranges.refOf_moved checked otherChecked below]
        rfl
    | entity =>
        have same : other.names.entities = file.names.entities := by
          unfold names
          rw [rearranges.entities]
        dsimp only
        rw [same]
        cases file.names.entities.lookup (component.entity.getD "") <;> rfl
    | pin | clock | primitive | unknown => rfl
  rw [ComponentEntry.component, kinds]
  rfl

/-- A reached circuit is the same in both libraries. -/
theorem Rearranges.circuit_moved {entry : CircuitEntry} (listed : entry ∈ file.circuits)
    (reaches : file.Reaches entry.name) (position : Nat)
    : entry.circuit other.names (file.shift other position)
      = (entry.circuit file.names position).moved (file.shift other) := by
  have components (pair : ComponentEntry × Nat) (member : pair ∈ entry.components.zipIdx)
      : pair.1.component other.names pair.2
        = (pair.1.component file.names pair.2).moved (file.shift other) := by
    have placed := List.mem_of_getElem? (List.mem_zipIdx_iff_getElem?.mp member)
    exact rearranges.component_moved checked otherChecked listed reaches placed pair.2
  rw [CircuitEntry.circuit, List.map_congr_left components, CircuitEntry.circuit, Circuit.moved,
    List.map_map]
  rfl

/-- The libraries hold the same reached circuits, each where its file lists it. -/
theorem Rearranges.moves
    (named : ∀ name, file.Reaches name → Identifier.isValid name = true)
    : file.library.Moves other.library (file.shift other) (fun position =>
        ∃ entry, file.circuits[position]? = some entry ∧ file.Reaches entry.name) where
  injective := checked.shift_injective
  inside := by
    rintro position ⟨entry, listed, -⟩
    simpa [library] using (List.getElem?_eq_some_iff.mp listed).1
  movedInside := by
    rintro position ⟨entry, listed, reaches⟩
    have found := rearranges.findCircuit? otherChecked (List.mem_of_getElem? listed) reaches
    rw [shift_listed listed found]
    simpa [library] using positionOf_lt found
  circuitAt := by
    rintro position ⟨entry, listed, reaches⟩
    have member := List.mem_of_getElem? listed
    have found := rearranges.findCircuit? otherChecked member reaches
    rw [library_circuitAt listed, ← rearranges.circuit_moved checked otherChecked member reaches]
    refine library_circuitAt ?_
    rw [shift_listed listed found]
    exact (findCircuit?_eq_some found).1
  named := by
    rintro position ⟨entry, listed, reaches⟩
    rw [library_circuitAt listed]
    exact named entry.name reaches
  closed := by
    rintro position ⟨entry, listed, reaches⟩ component placed target kind
    rw [library_circuitAt listed] at placed
    obtain ⟨⟨part, i⟩, there, rfl⟩ := List.mem_map.mp placed
    have found := List.mem_zipIdx_iff_getElem?.mp there
    have member := List.mem_of_getElem? listed
    obtain ⟨circuit, -, rfl⟩ := checked.instance_of member found kind
    have below : file.Reaches (part.circuit.getD "") :=
      reaches.tail ⟨entry, member, rfl, part, List.mem_of_getElem? found, circuit, rfl⟩
    obtain ⟨child, known⟩ := checked.reached below
    obtain ⟨here, same⟩ := findCircuit?_eq_some known
    exact ⟨child, here, same ▸ below⟩

end Moving

/-- Elaboration comes to libraries that hold the same reached circuits, and to the same top circuit.
-/
theorem Rearranges.elaborated [Arithmetic] {library otherLibrary : Library}
    {top otherTop : CircuitRef} (rearranges : file.Rearranges other)
    (named : ∀ name, file.Reaches name → Identifier.isValid name = true)
    (elaborated : file.elaborate = .ok (library, top))
    (otherElaborated : other.elaborate = .ok (otherLibrary, otherTop))
    : ∃ reached : Nat → Prop,
        library.Moves otherLibrary (file.shift other) reached
        ∧ reached top.position
        ∧ otherTop = top.moved (file.shift other) := by
  have checked := checked_of_elaborate elaborated
  have otherChecked := checked_of_elaborate otherElaborated
  obtain ⟨rfl, rfl⟩ := elaborate_eq elaborated
  obtain ⟨rfl, rfl⟩ := elaborate_eq otherElaborated
  obtain ⟨entry, found⟩ := checked.reached .refl
  obtain ⟨listed, name⟩ := findCircuit?_eq_some found
  refine ⟨_, rearranges.moves checked otherChecked named, ⟨entry, listed, name ▸ .refl⟩, ?_⟩
  rw [rearranges.top, rearranges.refOf_moved checked otherChecked .refl]

/-- What is generated from a design file does not depend on the order in which it lists its circuits
or on circuits that the top circuit does not reach, as long as the names of the reached circuits
are identifiers. Where no two input pins are connected to one point, it does not depend on the hash
order of the run either: two runs of one build, one for each file, come to the same outcome.
-/
theorem generate_rearranged {first second : Machine}
    (same : first.toArithmetic = second.toArithmetic) {library otherLibrary : Library}
    {top otherTop : CircuitRef} (rearranges : file.Rearranges other)
    (named : ∀ name, file.Reaches name → Identifier.isValid name = true)
    (elaborated : @elaborate first.toArithmetic file = .ok (library, top))
    (otherElaborated : @elaborate second.toArithmetic other = .ok (otherLibrary, otherTop))
    (apart
      : ∀ hierarchy,
          @Hierarchy.analyze first library top = .ok hierarchy
          → ∀ netlist ∈ hierarchy.netlists, netlist.InputsApart)
    (options : Options)
    : @generate second otherLibrary otherTop options = @generate first library top options := by
  rw [← same] at otherElaborated
  obtain ⟨reached, moves, known, rfl⟩ :=
    @Rearranges.elaborated _ _ first.toArithmetic _ _ _ _ rearranges named elaborated
      otherElaborated
  exact Generation.generate_moved options same moves known apart

/-- Circuits that hand their input on, and one that chains the first two of them. -/
def chainFile (stages : List String) : DesignFile where
  top := "Main"
  circuits :=
    stages.map (fun name =>
      {
        name,
        wires := [1],
        joins := [],
        splices := [],
        components := [
          ⟨"input_pin", some "d", .empty, [some (.wire 0)], none, none, some 1, none⟩,
          ⟨"output_pin", some "q", .empty, [some (.wire 0)], none, none, some 1, none⟩
        ],
        customBodies := []
      })
    ++ [
      {
        name := "Main",
        wires := [1, 1],
        joins := [],
        splices := [],
        components := [
          ⟨"circuit", none, .empty, [none, some (.wire 0)], some "First", none, none, none⟩,
          ⟨"circuit", none, .empty, [some (.wire 0), some (.wire 1)], some "Second", none, none,
            none⟩
        ],
        customBodies := []
      }
    ]
  entities := []

/-- A chain comes to the same files with its stages in the other order and with another circuit that
it has no use for, in a run with the other hash order.
-/
theorem chain_generate_rearranged
    : (chainFile ["First", "Second", "Old"]).Rearranges (chainFile ["New", "Second", "First"])
      ∧ ∃ library top otherLibrary otherTop,
        (chainFile ["First", "Second", "Old"]).elaborate = .ok (library, top)
        ∧ (chainFile ["New", "Second", "First"]).elaborate = .ok (otherLibrary, otherTop)
        ∧ (generate library top ⟨.vhdl, defaultOutputDirectory, .derived⟩).files.map
            OutputFile.path
          = ["circuit/First.vhd", "circuit/Second.vhd", "circuit/Main.vhd"]
        ∧ (∀ hierarchy,
            Hierarchy.analyze library top = .ok hierarchy
            → ∀ netlist ∈ hierarchy.netlists, netlist.InputsApart)
        ∧ ∀ options,
            @generate .inOrder otherLibrary otherTop options = generate library top options := by
  have reached {name : String} (reaches : (chainFile ["First", "Second", "Old"]).Reaches name)
      : name ∈ ["Main", "First", "Second"] :=
    reaches.mem (by decide) (by decide)
  have otherReached {name : String}
      (reaches : (chainFile ["New", "Second", "First"]).Reaches name)
      : name ∈ ["Main", "First", "Second"] :=
    reaches.mem (by decide) (by decide)
  have rearranges
      : (chainFile ["First", "Second", "Old"]).Rearranges
          (chainFile ["New", "Second", "First"]) := by
    refine ⟨rfl, rfl, (chainFile ["First", "Second"]).circuits, (chainFile ["Old"]).circuits.take 1,
      (chainFile ["New"]).circuits.take 1, by decide, by decide, ?_, ?_⟩
    · intro entry dropped reaches
      obtain rfl := List.mem_singleton.mp dropped
      exact absurd (reached reaches) (by decide)
    · intro entry added reaches
      obtain rfl := List.mem_singleton.mp added
      exact absurd (otherReached reaches) (by decide)
  have valid : ∀ name ∈ ["Main", "First", "Second"], Identifier.isValid name = true := by decide
  have outcomes
      : (do
          let design ← (chainFile ["First", "Second", "Old"]).elaborate.toOption
          let other ← (chainFile ["New", "Second", "First"]).elaborate.toOption
          let hierarchy ← (Hierarchy.analyze design.1 design.2).toOption
          return (decide (∀ netlist ∈ hierarchy.netlists, netlist.InputsApart),
            (generate design.1 design.2 ⟨.vhdl, defaultOutputDirectory, .derived⟩).files.map
              OutputFile.path))
        = some (true, ["circuit/First.vhd", "circuit/Second.vhd", "circuit/Main.vhd"]) := by
    decide +kernel
  simp only [bind, Option.bind_eq_some_iff, toOption_eq_some] at outcomes
  obtain
    ⟨⟨library, top⟩, elaborated, ⟨otherLibrary, otherTop⟩, otherElaborated, hierarchy, analyzed,
      values⟩ := outcomes
  obtain ⟨disjoint, paths⟩ := Prod.mk.inj (Option.some.inj values)
  have apart (other : Hierarchy) (alike : Hierarchy.analyze library top = .ok other)
      : ∀ netlist ∈ other.netlists, netlist.InputsApart := by
    obtain rfl := Except.ok.inj (analyzed.symm.trans alike)
    exact of_decide_eq_true disjoint
  refine
    ⟨rearranges, library, top, otherLibrary, otherTop, elaborated, otherElaborated, paths, apart,
      ?_⟩
  exact
    @generate_rearranged _ _ .optimized .inOrder rfl _ _ _ _ rearranges
      (fun name reaches => valid name (reached reaches)) elaborated otherElaborated apart

end DesignFile

end SchematicHdl
