import SchematicHdl.Proofs.Generation.Keys
import SchematicHdl.Proofs.Respelling

/-! Names of circuits and entities in the output library. A name that has to be respelled is marked
with the position of its definition, and circuits and entities are numbered apart. So respelled
names of two circuits differ, and those of two entities, but a circuit and an entity at the same
position may meet in one name, and then a run that needs both of them fails.
-/

namespace SchematicHdl

-----------------------------------------------------------------------------------------
-- Definitions with names of their own
-----------------------------------------------------------------------------------------

/-- A definition that the user has named. -/
inductive NamedUnit where
  | circuit (circuit : Circuit)
  | entity (entity : ExternalEntity)

namespace NamedUnit

/-- The name as the user has spelled it. -/
def title : NamedUnit → String
  | .circuit content => content.name
  | .entity content => content.name

/-- The position among the circuits or among the entities. -/
def position : NamedUnit → Nat
  | .circuit content => content.position
  | .entity content => content.position

/-- The name in the output library. -/
def key (unit : NamedUnit) : String := Identifier.ofLabel unit.title unit.position

/-- One of the two is a circuit and the other one an entity. -/
inductive DifferInKind : NamedUnit → NamedUnit → Prop
  | circuitFirst {circuit entity} : DifferInKind (.circuit circuit) (.entity entity)
  | entityFirst {circuit entity} : DifferInKind (.entity entity) (.circuit circuit)

end NamedUnit

/-- The library has the definition. -/
inductive Library.Has (library : Library) : NamedUnit → Prop
  | circuit {circuit} (listed : circuit ∈ library.circuits) : Library.Has library (.circuit circuit)
  | entity {entity} (listed : entity ∈ library.entities) : Library.Has library (.entity entity)

/-- Circuits and entities are numbered, each kind for itself. -/
structure Library.Numbered (library : Library) : Prop where
  circuits
    : ∀ (position : Nat) (circuit : Circuit),
        library.circuits[position]? = some circuit → circuit.position = position
  entities
    : ∀ (position : Nat) (entity : ExternalEntity),
        library.entities[position]? = some entity → entity.position = position

theorem DesignFile.numbered (file : DesignFile) : file.library.Numbered where
  circuits := by
    intro position circuit found
    have entries := (file.library_circuit? position).symm.trans found
    obtain ⟨entry, -, rfl⟩ := Option.map_eq_some_iff.mp entries
    rfl
  entities := by
    intro position entity found
    rw [library, List.getElem?_map, List.getElem?_zipIdx, Option.map_map, Nat.zero_add] at found
    obtain ⟨entry, -, rfl⟩ := Option.map_eq_some_iff.mp found
    rfl

/-- What is numbered by its place in a list is told by its number. -/
theorem eq_of_numbered {α : Type} {xs : List α} {number : α → Nat}
    (numbered : ∀ (i : Nat) (x : α), xs[i]? = some x → number x = i) {a b : α} (memberA : a ∈ xs)
    (memberB : b ∈ xs) (same : number a = number b)
    : a = b := by
  obtain ⟨i, atA⟩ := List.mem_iff_getElem?.mp memberA
  obtain ⟨j, atB⟩ := List.mem_iff_getElem?.mp memberB
  obtain rfl : i = j := by rw [← numbered i a atA, ← numbered j b atB, same]
  exact Option.some.inj (atA.symm.trans atB)

/-- A definition is told by its kind and its position. -/
theorem Library.Numbered.differInKind {library : Library} (numbered : library.Numbered)
    {a b : NamedUnit} (hasA : library.Has a) (hasB : library.Has b) (differ : a ≠ b)
    (same : a.position = b.position)
    : a.DifferInKind b := by
  cases hasA with
  | circuit listed =>
      cases hasB with
      | circuit there =>
          exact absurd (congrArg _ (eq_of_numbered numbered.circuits listed there same)) differ
      | entity => exact .circuitFirst
  | entity listed =>
      cases hasB with
      | circuit => exact .entityFirst
      | entity there =>
          exact absurd (congrArg _ (eq_of_numbered numbered.entities listed there same)) differ

/-- Two definitions of the library, both with names that are respelled. -/
structure Library.Respells (library : Library) (a b : NamedUnit) : Prop where
  first : library.Has a
  second : library.Has b
  differ : a ≠ b
  firstOdd : Identifier.IsRespelled a.title
  secondOdd : Identifier.IsRespelled b.title

/-- A circuit and an entity stand at the same position. -/
def NamedUnit.Meets (a b : NamedUnit) : Prop := a.DifferInKind b ∧ a.position = b.position

/-- Respelled names are the same, but for letter case, only where a circuit and an entity stand at
the same position.
-/
theorem Library.Numbered.meets {library : Library} (numbered : library.Numbered) {a b : NamedUnit}
    (respells : library.Respells a b) (same : Text.foldCase a.key = Text.foldCase b.key)
    : a.Meets b := by
  have position :=
    Identifier.position_eq_of_foldCase respells.firstOdd respells.secondOdd same
  exact
    ⟨numbered.differInKind respells.first respells.second respells.differ position, position⟩

end SchematicHdl

namespace SchematicHdl.Generation

open Netlist (positions)
open SchematicHdl.Outcome

variable {library : Library} {hierarchy : Hierarchy} {options : Options} {form : Form}

-----------------------------------------------------------------------------------------
-- Definitions that come up
-----------------------------------------------------------------------------------------

/-- A run is valid where a definition comes up, by induction on how it comes up. -/
theorem ComesTo.valid [Arithmetic] {last run : Run} (sound : hierarchy.Sound library)
    (first : ChildrenFirst library.below (positions hierarchy.netlists)) {bound : Nat}
    {before after : List Netlist} {netlist : Netlist}
    (split : hierarchy.netlists = before ++ netlist :: after) (room : before.length ≤ bound)
    {opens : List Handled}
    (around
      : ∀ key ∈ opens, ∃ outer ∈ netlist :: after, key = (outer.form options.clockMode).key)
    {done : List Netlist} (valid : Valid hierarchy options opens done run)
    (comes : ComesTo hierarchy options form last bound netlist run)
    : ∃ opens done, Valid hierarchy options opens done last := by
  induction comes generalizing before after opens done with
  | @here bound netlist run earlier part later realization parts emitted =>
      have held : earlier ⊆ netlist.parts := parts ▸ List.subset_append_left _ _
      obtain ⟨done', reached⟩ := emitParts_valid sound first split around held valid emitted
      exact ⟨opens, done', reached⟩
  | @inside bound netlist run earlier part later middle realization child position parts emitted
      placed resolved definition listed new _ ih =>
      have held : earlier ⊆ netlist.parts := parts ▸ List.subset_append_left _ _
      obtain ⟨done', reached⟩ := emitParts_valid sound first split around held valid emitted
      have member : part ∈ netlist.parts := by simp [parts]
      obtain ⟨inBefore, -, form_eq⟩ := child_before sound first split member resolved definition
      obtain ⟨outside, between, rfl⟩ := List.append_of_mem inBefore
      obtain ⟨childSplit, aroundChild⟩ := around_child around split
      have place : position = outside.length :=
        Option.some.inj (listed.symm.trans (positionOf?_eq sound childSplit))
      have opened
          : Valid hierarchy options ((child.form options.clockMode).key :: opens) done'
              (middle.opened realization.form (levelLabel part.component)) := by
        rw [← form_eq]
        exact reached.opened new
      exact ih childSplit (Nat.le_of_eq place.symm) aroundChild opened

/-- What is handled where a definition comes up is filed under its folded key. -/
theorem Meets.folded [Machine] {top : CircuitRef} {last : Run} (wellFormed : library.WellFormed)
    (meets : Meets library top options form last)
    : ∀ entry ∈ last.handled, entry.1 = Text.foldCase entry.2.key := by
  obtain @⟨hierarchy, netlist, analyzed, found, -, comes⟩ := meets
  obtain ⟨sound, first, before, after, split, room⟩ := top_split wellFormed analyzed found
  have started : Valid hierarchy options [] [] { Run.start with warnings := hierarchy.warnings } :=
    Valid.start.congr ⟨rfl, rfl, rfl⟩
  obtain ⟨opens, done, valid⟩ :=
    comes.valid sound first split room
      (fun key waiting => ⟨netlist, List.mem_cons_self, List.mem_singleton.mp waiting⟩)
      (started.opened rfl)
  exact valid.folded

-----------------------------------------------------------------------------------------
-- Designs from files
-----------------------------------------------------------------------------------------

/-- Respelled names tell definitions of one kind apart. In a design that is built from a file, two
respelled names are never the same, not even but for letter case, unless one belongs to a circuit
and the other to an entity at the same position; and no run comes to one definition while its key is
taken by another one, with the same exception.
-/
theorem generate_tellsNamesApart [Machine] {file : DesignFile} {top : CircuitRef}
    (elaborated : file.elaborate = .ok (library, top))
    : (∀ hierarchy netlist mode,
          Hierarchy.analyze library top = .ok hierarchy
          → netlist ∈ hierarchy.netlists
          → library.Has (.circuit netlist.circuit)
            ∧ (netlist.form mode).name = (NamedUnit.circuit netlist.circuit).key)
      ∧ (∀ entity : ExternalEntity, entity.form.name = (NamedUnit.entity entity).key)
      ∧ (∀ a b,
          library.Respells a b → Text.foldCase a.key = Text.foldCase b.key → a.Meets b)
      ∧ ∀ options form first last a b,
          library.Respells a b
          → Meets library top options form last
          → last.handled.lookup (Text.foldCase form.name) = some first
          → first.key = a.key
          → form.name = b.key
          → a.Meets b := by
  have wellFormed := (DesignFile.elaborate_builtWithCare elaborated).built.wellFormed
  have numbered : library.Numbered := by
    rw [(DesignFile.elaborate_eq elaborated).1]
    exact file.numbered
  refine ⟨?_, fun entity => ?_, fun a b respells same => numbered.meets respells same, ?_⟩
  · intro hierarchy netlist mode analyzed member
    have sound := (Hierarchy.sound_of_analyze wellFormed analyzed).netlists netlist member
    have listed : netlist.circuit ∈ library.circuits := List.mem_of_getElem? sound.found
    exact ⟨.circuit listed, sound.name_eq⟩
  · simp only [ExternalEntity.form, NamedUnit.key, NamedUnit.title, NamedUnit.position]
  · intro options form first last a b respells meets taken key name
    have filed := meets.folded wellFormed _ (mem_of_lookup_eq_some taken)
    refine numbered.meets respells ?_
    rw [← key, ← name]
    exact filed.symm

/-- A circuit that instantiates an entity, both at the first position of their kinds. -/
def meetingFile : DesignFile where
  top := "my circ"
  circuits := [
    {
      name := "my circ",
      wires := [1],
      joins := [],
      splices := [],
      components := [
        ⟨"input_pin", some "a", .empty, [some (.wire 0)], none, none, some 1, none⟩,
        ⟨"entity", some "u", .empty, [some (.wire 0)], none, some "my-circ", none, none⟩
      ],
      customBodies := []
    }
  ]
  entities := [⟨"my-circ", .vhdl, [⟨"x", .input, 1⟩], "BEGIN"⟩]

theorem meeting_respells
    : ∃ circuit entity,
        meetingFile.library.Respells (.circuit circuit) (.entity entity)
        ∧ (NamedUnit.circuit circuit).key = "my_circ_0"
        ∧ (NamedUnit.entity entity).key = "my_circ_0" :=
  ⟨_, _,
    {
      first := .circuit List.mem_cons_self
      second := .entity List.mem_cons_self
      differ := nofun
      firstOdd := show Identifier.isValid (String.ofList (Text.trim "my circ".toList)) = false by
        decide +kernel
      secondOdd := show Identifier.isValid (String.ofList (Text.trim "my-circ".toList)) = false by
        decide +kernel
    },
    by decide +kernel, by decide +kernel⟩

/-- The circuit and the entity have one name, so they are of different kinds and at one position. -/
theorem meeting_tellsNamesApart
    : ∃ library top a b,
        meetingFile.elaborate = .ok (library, top)
        ∧ library.Respells a b
        ∧ Text.foldCase a.key = Text.foldCase b.key
        ∧ a.Meets b := by
  have elaborates : meetingFile.elaborate.toOption.isSome = true := by decide +kernel
  obtain ⟨⟨library, top⟩, found⟩ := Option.isSome_iff_exists.mp elaborates
  have elaborated := toOption_eq_some.mp found
  obtain ⟨circuit, entity, respells, first, second⟩ := meeting_respells
  rw [← (DesignFile.elaborate_eq elaborated).1] at respells
  have same
      : Text.foldCase (NamedUnit.circuit circuit).key
        = Text.foldCase (NamedUnit.entity entity).key := by
    rw [first, second]
  exact
    ⟨library, top, _, _, elaborated, respells, same,
      (generate_tellsNamesApart elaborated).2.2.1 _ _ respells same⟩

/-- Two respelled names are the same, and the run that needs both definitions fails for it. -/
theorem meeting_namesCollide
    : ∃ library top a b,
        meetingFile.elaborate = .ok (library, top)
        ∧ library.Respells a b
        ∧ Text.foldCase a.key = Text.foldCase b.key
        ∧ (generate library top registerOptions).error
          = some
              (.identifierCollision "my_circ_0" "VHDL library" "circuit \"my circ\""
                "entity \"my-circ\"") := by
  have outcome
      : meetingFile.elaborate.toOption.map (fun design =>
          (generate design.1 design.2 registerOptions).error)
        = some
            (some
              (.identifierCollision "my_circ_0" "VHDL library" "circuit \"my circ\""
                "entity \"my-circ\"")) := by
    decide +kernel
  obtain ⟨⟨library, top⟩, found, failed⟩ := Option.map_eq_some_iff.mp outcome
  have elaborated := toOption_eq_some.mp found
  obtain ⟨circuit, entity, respells, first, second⟩ := meeting_respells
  rw [← (DesignFile.elaborate_eq elaborated).1] at respells
  exact ⟨library, top, _, _, elaborated, respells, by rw [first, second], failed⟩

end SchematicHdl.Generation
