import SchematicHdl.Proofs.DesignFile.PinsFirst
import SchematicHdl.Proofs.Schematic.References

/-! What a design file comes to. Every circuit of its library holds what its own entry lists, with
circuits and entities in place of their names; no other entry has a part in it.
-/

namespace SchematicHdl

open Outcome

-----------------------------------------------------------------------------------------
-- What entries describe
-----------------------------------------------------------------------------------------

namespace ComponentEntry

/-- What a component is, when names stand for circuits and entities. -/
def kindIn (names : NameTable) (entry : ComponentEntry) : ComponentKind :=
  match entry.kind with
  | .pin direction => .pin direction
  | .clock => .clock
  | .circuit =>
      match names.circuits.lookup (entry.circuit.getD "") with
      | some target => .subcircuit target
      | none => .unknown entry.type []
  | .entity =>
      match names.entities.lookup (entry.entity.getD "") with
      | some entity => .external entity
      | none => .unknown entry.type []
  | .primitive type => .primitive type
  | .unknown =>
      .unknown entry.type ((entry.ends.getD []).map (fun port => ⟨port.direction, port.width⟩))

/-- The attributes of a component; only some kinds have any of those that are listed. -/
def ownAttributes (entry : ComponentEntry) : Attributes :=
  match entry.kind with
  | .pin _ => Attributes.empty.set "width" (.number (entry.width.getD 1))
  | .circuit => .empty
  | .entity => .empty
  | _ => entry.attributes

/-- Connections under the numbers of their ends, in the order in which they are made. -/
def attached (connections : List (Option Connection × Nat)) : List (Nat × Connection) :=
  connections.filterMap (fun (connection, endIndex) =>
    connection.map (fun connection => (endIndex, connection)))

/-- The component that an entry describes. -/
def component (names : NameTable) (entry : ComponentEntry) (position : Nat) : Component where
  position
  kind := entry.kindIn names
  attributes := entry.ownAttributes
  label := if entry.isPin then some (entry.label.getD "") else entry.label
  connections := (attached entry.connections.zipIdx).reverse

end ComponentEntry

/-- The circuit that an entry describes. -/
def CircuitEntry.circuit (names : NameTable) (entry : CircuitEntry) (position : Nat)
    : Circuit where
  position
  name := entry.name
  wires := entry.wires
  joins := entry.joins
  splices := entry.splices
  components := entry.components.zipIdx.map (fun (entry, i) => entry.component names i)
  customBody := fun dialect => entry.customBodies.reverse.lookup dialect

/-- The library that a file describes. -/
def DesignFile.library (file : DesignFile) : Library where
  tag := 0
  circuits := file.circuits.zipIdx.map (fun (entry, i) => entry.circuit file.names i)
  entities := file.entities.zipIdx.map (fun (entry, i) => entry.entity i)

-----------------------------------------------------------------------------------------
-- Steps that change one circuit
-----------------------------------------------------------------------------------------

namespace Library

variable {library : Library} {position : Nat}

/-- The library with another circuit at one position. -/
def filled (library : Library) (position : Nat) (content : Circuit) : Library :=
  library.changed position (fun _ => content)

theorem filled_changed (content : Circuit) (change : Circuit → Circuit)
    : (library.filled position content).changed position change
      = library.filled position (change content) := by
  simp only [filled, changed, List.modify_modify_eq]
  rfl

theorem circuitAt_filled (inside : position < library.circuits.length) (content : Circuit)
    : (library.filled position content).circuitAt position = content := by
  rw [filled, circuitAt_changed inside, if_pos rfl]

end Library

namespace Build

variable {library library' : Library} {position : Nat} {content : Circuit}

theorem updateCircuit_filled {change : Circuit → Circuit}
    (h
      : (updateCircuit position change).run (library.filled position content)
        = .ok ((), library'))
    : library' = library.filled position (change content) := by
  rw [updateCircuit_run, Library.filled_changed] at h
  exact (Prod.mk.inj (Except.ok.inj h)).2.symm

theorem wire_filled {width : Nat} {id : WireId}
    (h : (wire position width).run (library.filled position content) = .ok (id, library'))
    : library' = library.filled position { content with wires := content.wires ++ [width] } := by
  simp only [wire] at h
  split at h
  · obtain ⟨_, _, thrown, -⟩ := run_bind_eq_ok.1 h
    exact absurd thrown run_throw_ne_ok
  split at h
  · obtain ⟨_, _, thrown, -⟩ := run_bind_eq_ok.1 h
    exact absurd thrown run_throw_ne_ok
  simp only [run_bind_eq_ok, run_get_eq_ok, run_pure_eq_ok, Prod.mk.injEq] at h
  obtain ⟨_, _, ⟨rfl, rfl⟩, _, _, updated, _, rfl⟩ := h
  exact updateCircuit_filled updated

theorem checked_update_filled {first second : Library → Except Misuse Unit}
    {change : Circuit → Circuit}
    (h
      : (do check first; check second; updateCircuit position change : BuildM Unit).run
          (library.filled position content)
        = .ok ((), library'))
    : library' = library.filled position (change content) := by
  simp only [run_bind_eq_ok, check_run_eq_ok, Prod.mk.injEq] at h
  obtain ⟨_, _, ⟨_, _, _, rfl⟩, _, _, ⟨_, _, _, rfl⟩, updated⟩ := h
  exact updateCircuit_filled updated

theorem join_filled {a b : WireId}
    (h : (join position a b).run (library.filled position content) = .ok ((), library'))
    : library'
      = library.filled position
          { content with joins := content.joins ++ [(a.wire, b.wire)] } :=
  checked_update_filled h

theorem splice_filled {a b : WireId} {aBit bBit : Nat}
    (h
      : (splice position a aBit b bBit).run (library.filled position content) = .ok ((), library'))
    : library'
      = library.filled position
          {
            content with
              splices := content.splices ++ [(⟨a.wire, aBit⟩, ⟨b.wire, bBit⟩)]
          } :=
  checked_update_filled h

/-- A component is placed behind the others. -/
theorem place_filled (inside : position < library.circuits.length) {kind : ComponentKind}
    {attributes : Attributes} {label : Option String} {placed : Nat}
    (h
      : (place position kind attributes label).run (library.filled position content)
        = .ok (placed, library'))
    : placed = content.components.length
      ∧ library'
        = library.filled position
            {
              content with
                components :=
                  content.components
                    ++ [{ position := placed, kind, attributes, label, connections := [] }]
            } := by
  rw [place_run, Library.circuitAt_filled inside, Library.filled_changed] at h
  obtain ⟨rfl, rfl⟩ := Prod.mk.inj (Except.ok.inj h)
  exact ⟨rfl, rfl⟩

/-- The last component of a circuit is changed. -/
theorem updateComponent_filled {components : List Component} {last : Component}
    {change : Component → Component}
    (h
      : (updateComponent position components.length change).run
          (library.filled position { content with components := components ++ [last] })
        = .ok ((), library'))
    : library'
      = library.filled position { content with components := components ++ [change last] } := by
  rw [updateCircuit_filled h]
  simp [List.modify_eq_take_drop, List.modifyHead]

/-- Steps that each add an entry to what a circuit lists add all of them, by induction on the steps.
-/
theorem forM_filled {α : Type} {action : α → BuildM PUnit} (listing : List α → Circuit)
    (each
      : ∀ x listed library',
          (action x).run (library.filled position (listing listed)) = .ok (⟨⟩, library')
          → library' = library.filled position (listing (listed ++ [x])))
    {xs listed : List α}
    (h : (xs.forM action).run (library.filled position (listing listed)) = .ok (⟨⟩, library'))
    : library' = library.filled position (listing (listed ++ xs)) := by
  induction xs generalizing listed with
  | nil =>
      rw [List.append_nil]
      exact (Prod.mk.inj (run_pure_eq_ok.1 h)).2.symm
  | cons x xs ih =>
      obtain ⟨_, middle, first, rest⟩ := run_bind_eq_ok.1 h
      rw [each x listed middle first] at rest
      rw [ih rest, List.append_assoc, List.singleton_append]

end Build

-----------------------------------------------------------------------------------------
-- Components
-----------------------------------------------------------------------------------------

namespace ComponentEntry

variable {names : NameTable} {entry : ComponentEntry} {library library' : Library}
  {position placed : Nat} {content : Circuit}

/-- A component that is placed is what its entry describes, by cases on its kind. -/
theorem place_run
    (h : (entry.place names position).run library = .ok (placed, library'))
    : (Build.place position (entry.kindIn names) entry.ownAttributes
          (if entry.isPin then some (entry.label.getD "") else none)).run library
      = .ok (placed, library') := by
  unfold place at h
  unfold kindIn ownAttributes
  rw [DesignFile.isPin_eq]
  cases kind : entry.kind with
  | pin direction =>
      simp only [kind, Build.pin] at h ⊢
      split at h
      · obtain ⟨_, _, -, h⟩ := run_bind_eq_ok.1 h
        obtain ⟨_, _, thrown, -⟩ := run_bind_eq_ok.1 h
        exact absurd thrown run_throw_ne_ok
      · exact h
  | clock =>
      simp only [kind] at h ⊢
      exact h
  | circuit =>
      simp only [kind] at h ⊢
      cases found : names.circuits.lookup (entry.circuit.getD "") with
      | some target =>
          simp only [found, Build.subcircuit, run_bind_eq_ok, run_get_eq_ok, Prod.mk.injEq] at h
          obtain ⟨_, _, ⟨rfl, rfl⟩, h⟩ := h
          split at h
          · obtain ⟨_, _, thrown, -⟩ := run_bind_eq_ok.1 h
            exact absurd thrown run_throw_ne_ok
          · exact h
      | none =>
          rw [found] at h
          exact h
  | entity =>
      simp only [kind] at h ⊢
      cases found : names.entities.lookup (entry.entity.getD "") with
      | some entity | none =>
          rw [found] at h
          exact h
  | primitive type =>
      simp only [kind, Build.primitive] at h ⊢
      split at h
      · simp only [run_bind_eq_ok, run_get_eq_ok, Prod.mk.injEq] at h
        obtain ⟨_, _, _, thrown⟩ := h
        exact absurd thrown run_throw_ne_ok
      · exact h
  | unknown =>
      simp only [kind] at h ⊢
      exact h

/-- The circuit with one more component, some ends of which are attached. -/
def appended (content : Circuit) (last : Component) (made : List (Option Connection × Nat))
    : Circuit :=
  {
    content with
      components := content.components ++ [{ last with connections := (attached made).reverse }]
  }

/-- Connecting an end of the last component attaches what is listed for it. -/
theorem connect_filled [Arithmetic] {last : Component} {made : List (Option Connection × Nat)}
    {connection : Option Connection} {endIndex : Nat}
    (h
      : (connect position content.components.length endIndex connection).run
          (library.filled position (appended content last made))
        = .ok ((), library'))
    : library'
      = library.filled position (appended content last (made ++ [(connection, endIndex)])) := by
  have more
      : (attached (made ++ [(connection, endIndex)])).reverse
        = (attached [(connection, endIndex)]).reverse ++ (attached made).reverse := by
    rw [attached, List.filterMap_append, List.reverse_append]
    rfl
  rw [appended, more]
  unfold connect at h
  split at h
  · exact (Prod.mk.inj (run_pure_eq_ok.1 h)).2.symm
  · simp only [Build.connect, Build.checkEnd, run_bind_eq_ok, Build.check_run_eq_ok,
      Prod.mk.injEq] at h
    obtain ⟨_, _, ⟨_, _, _, rfl⟩, _, _, ⟨_, _, _, rfl⟩, updated⟩ := h
    exact Build.updateComponent_filled updated
  · simp only [Build.connectBits, Build.checkEnd, run_bind_eq_ok, Build.check_run_eq_ok,
      Prod.mk.injEq] at h
    obtain ⟨_, _, ⟨_, _, _, rfl⟩, _, _, ⟨_, _, _, rfl⟩, updated⟩ := h
    rw [Build.updateComponent_filled updated]
    simp [attached, Component.attach, Function.comp_def]

/-- A component is built as its entry describes it, behind those that are there. -/
theorem build_filled [Arithmetic] (inside : position < library.circuits.length)
    (h : (entry.build names position).run (library.filled position content) = .ok ((), library'))
    : library'
      = library.filled position
          {
            content with
              components :=
                content.components ++ [entry.component names content.components.length]
          } := by
  simp only [build, run_bind_eq_ok] at h
  obtain ⟨placed, middle, there, h⟩ := h
  obtain ⟨rfl, rfl⟩ := Build.place_filled inside (place_run there)
  -- All but the label is known when the component is placed.
  have connected (label : Option String)
      (same : label = if entry.isPin then some (entry.label.getD "") else entry.label)
      (h
        : (entry.connections.zipIdx.forM (fun pair =>
              connect position content.components.length pair.2 pair.1)).run
            (library.filled position
              (appended content
                ⟨content.components.length, entry.kindIn names, entry.ownAttributes, label, []⟩ []))
          = .ok ((), library'))
      : library'
        = library.filled position
            {
              content with
                components :=
                  content.components ++ [entry.component names content.components.length]
            } := by
    rw [component, ← same]
    exact Build.forM_filled (appended content _) (fun _ _ _ step => connect_filled step) h
  split at h
  · next text labelled =>
      split at h
      · next notPin =>
          obtain ⟨_, middle, named, h⟩ := run_bind_eq_ok.1 h
          rw [Build.updateComponent_filled named] at h
          exact connected (some text) (by simp [labelled]) h
      · next pin =>
          -- A pin is placed with its name, and its label is not set again.
          have isPin : entry.isPin = true := by simpa using pin
          exact connected (if entry.isPin then _ else none) (by simp [isPin]) h
  · next unlabelled => exact connected (if entry.isPin then _ else none) (by simp [unlabelled]) h

end ComponentEntry

-----------------------------------------------------------------------------------------
-- Circuits
-----------------------------------------------------------------------------------------

namespace CircuitEntry

variable {names : NameTable} {entry : CircuitEntry} {library library' : Library} {position : Nat}
  {content : Circuit}

/-- Components are built behind those that are there, each at its position, by induction on the
components.
-/
theorem components_filled [Arithmetic] (inside : position < library.circuits.length)
    {components : List ComponentEntry}
    (h
      : (components.forM (fun component => component.build names position)).run
          (library.filled position content)
        = .ok ((), library'))
    : library'
      = library.filled position
          {
            content with
              components :=
                content.components
                  ++ (components.zipIdx content.components.length).map (fun (entry, i) =>
                    entry.component names i)
          } := by
  induction components generalizing content with
  | nil =>
      rw [List.zipIdx_nil, List.map_nil, List.append_nil]
      exact (Prod.mk.inj (run_pure_eq_ok.1 h)).2.symm
  | cons head tail ih =>
      obtain ⟨_, middle, first, rest⟩ := run_bind_eq_ok.1 h
      rw [ComponentEntry.build_filled inside first] at rest
      rw [ih rest, List.length_append, List.length_singleton, List.zipIdx_cons, List.map_cons,
        List.append_assoc, List.singleton_append]

/-- The circuit of an entry, with only some hand-written architectures. -/
def withBodies (names : NameTable) (entry : CircuitEntry) (position : Nat)
    (bodies : List (Dialect × String)) : Circuit :=
  { entry.circuit names position with customBody := fun dialect => bodies.reverse.lookup dialect }

/-- The last hand-written architecture for a dialect counts. -/
theorem customBody_filled {bodies : List (Dialect × String)} {body : Dialect × String}
    (h
      : (Build.customBody position body.1 body.2).run
          (library.filled position (entry.withBodies names position bodies))
        = .ok ((), library'))
    : library'
      = library.filled position (entry.withBodies names position (bodies ++ [body])) := by
  rw [Build.updateCircuit_filled h]
  congr 2
  funext other
  rw [List.reverse_append, List.reverse_singleton, List.singleton_append, List.lookup_cons]
  by_cases same : other = body.1
  · simp [same]
  · rw [if_neg same, beq_eq_false_iff_ne.mpr same]
    rfl

/-- An empty circuit is filled with what its entry describes. -/
theorem build_filled [Arithmetic] (inside : position < library.circuits.length)
    (h
      : (entry.build names position).run (library.filled position (.empty position entry.name))
        = .ok ((), library'))
    : library' = library.filled position (entry.circuit names position) := by
  simp only [build, run_bind_eq_ok] at h
  obtain
    ⟨_, wired, wires, _, joined, joins, _, spliced, splices, _, placed, components, bodies⟩ := h
  obtain rfl :=
    Build.forM_filled (fun wires => ⟨position, entry.name, wires, [], [], [], fun _ => none⟩)
      (fun _ _ _ step => by
        obtain ⟨_, step⟩ := run_discard_eq_ok.1 step
        exact Build.wire_filled step) wires
  obtain rfl :=
    Build.forM_filled
      (fun joins => ⟨position, entry.name, entry.wires, joins, [], [], fun _ => none⟩)
      (fun _ _ _ step => Build.join_filled step) joins
  obtain rfl :=
    Build.forM_filled
      (fun splices =>
        ⟨position, entry.name, entry.wires, entry.joins, splices, [], fun _ => none⟩)
      (fun _ _ _ step => Build.splice_filled step) splices
  obtain rfl := components_filled inside components
  have bodies
      : (entry.customBodies.forM (fun body => Build.customBody position body.1 body.2)).run
          (library.filled position (entry.withBodies names position []))
        = .ok ((), library') := bodies
  exact
    Build.forM_filled (entry.withBodies names position) (fun _ _ _ step => customBody_filled step)
      bodies

end CircuitEntry

-----------------------------------------------------------------------------------------
-- Whole files
-----------------------------------------------------------------------------------------

namespace DesignFile

variable {file : DesignFile} {library : Library} {top : CircuitRef}

/-- The first circuit of those that are not filled yet is replaced. -/
theorem filled_append (filled rest : List Circuit) (first content : Circuit)
    (entities : List ExternalEntity)
    : Library.filled ⟨0, filled ++ first :: rest, entities⟩ filled.length content
      = ⟨0, filled ++ content :: rest, entities⟩ := by
  simp [Library.filled, Library.changed, List.modify_eq_take_drop, List.modifyHead]

/-- Circuits that are empty from some position on are filled in turn, by induction on them. -/
theorem fill_filled [Arithmetic] {names : NameTable} {entries : List CircuitEntry}
    (filled : List Circuit)
    {entities : List ExternalEntity} {library' : Library}
    (h
      : StateT.run
          ((entries.zipIdx filled.length).forM (fun entry => entry.1.build names entry.2))
          ⟨0,
            filled
              ++ (entries.zipIdx filled.length).map (fun entry => .empty entry.2 entry.1.name),
            entities⟩
        = .ok ((), library'))
    : library'
      = ⟨0,
          filled
            ++ (entries.zipIdx filled.length).map (fun entry => entry.1.circuit names entry.2),
          entities⟩ := by
  induction entries generalizing filled with
  | nil => exact (Prod.mk.inj (run_pure_eq_ok.1 h)).2.symm
  | cons entry rest ih =>
      rw [List.zipIdx_cons, List.map_cons] at h
      obtain ⟨_, middle, first, later⟩ := run_bind_eq_ok.1 h
      have empty := filled_append filled ((rest.zipIdx (filled.length + 1)).map fun entry =>
        .empty entry.2 entry.1.name) (.empty filled.length entry.name)
        (.empty filled.length entry.name) entities
      rw [← empty] at first
      rw [CircuitEntry.build_filled (by simp) first, filled_append, List.append_cons] at later
      rw [List.zipIdx_cons, List.map_cons, List.append_cons]
      have same : filled.length + 1 = (filled ++ [entry.circuit names filled.length]).length := by
        simp
      rw [same] at later ⊢
      exact ih _ later

theorem zip_zipIdx {α β : Type} (g : α × Nat → β) (xs : List α) (start : Nat)
    : xs.zip ((xs.zipIdx start).map g) = (xs.zipIdx start).map (fun x => (x.1, g x)) := by
  induction xs generalizing start with
  | nil => rfl
  | cons x xs ih =>
      rw [List.zipIdx_cons, List.map_cons, List.map_cons, List.zip_cons_cons, ih]

theorem fill_eq [Arithmetic] (file : DesignFile)
    : file.fill = file.circuits.zipIdx.forM (fun entry => entry.1.build file.names entry.2) := by
  have listed
      : file.circuits.zip file.names.circuits
        = file.circuits.zipIdx.map (fun entry =>
            (entry.1, entry.1.name, ⟨0, entry.2, entry.1.name⟩)) :=
    zip_zipIdx _ _ 0
  simp only [fill, listed, List.forM_eq_forM, List.forM_map]

theorem checked_of_elaborate [Arithmetic] (h : file.elaborate = .ok (library, top))
    : file.Checked := by
  unfold elaborate at h
  split at h
  · cases h
  · next inOrder => exact checked_of_check inOrder

/-- What comes out of a design file is the library that the file describes, with the circuit that it
names.
-/
theorem elaborate_eq [Arithmetic] (h : file.elaborate = .ok (library, top))
    : library = file.library ∧ top = file.refOf file.top := by
  have checked := checked_of_elaborate h
  unfold elaborate at h
  split at h
  · cases h
  · split at h
    · cases h
    · next top' library' built =>
        obtain ⟨rfl, rfl⟩ := Prod.mk.inj (Except.ok.inj h)
        rw [build_run checked.circuitNames] at built
        simp only [run_bind_eq_ok, run_get_eq_ok, run_pure_eq_ok, Prod.mk.injEq] at built
        obtain ⟨_, middle, filled, _, _, ⟨rfl, rfl⟩, found, rfl⟩ := built
        refine ⟨?_, ?_⟩
        · rw [fill_eq] at filled
          exact fill_filled [] filled
        · rw [← found, file.names_stand.circuits _ checked.top, Option.getD_some]

-----------------------------------------------------------------------------------------
-- References
-----------------------------------------------------------------------------------------

theorem library_circuit? (file : DesignFile) (position : Nat)
    : file.library.circuit? position
      = file.circuits[position]?.map (fun entry => entry.circuit file.names position) := by
  rw [Library.circuit?, library, List.getElem?_map, List.getElem?_zipIdx, Option.map_map,
    Nat.zero_add]
  rfl

theorem findCircuit?_eq_some {name : String} {entry : CircuitEntry}
    (found : file.findCircuit? name = some entry)
    : file.circuits[file.positionOf name]? = some entry ∧ entry.name = name := by
  refine ⟨?_, by simpa using List.find?_some found⟩
  rwa [findCircuit?, List.find?_eq_getElem?_findIdx] at found

/-- The circuits that a file lists are known under their names. -/
theorem library_knows {name : String} (found : (file.findCircuit? name).isSome)
    : file.library.Knows (file.refOf name) := by
  obtain ⟨entry, found⟩ := Option.isSome_iff_exists.mp found
  obtain ⟨listed, named⟩ := findCircuit?_eq_some found
  refine ⟨rfl, ?_⟩
  have here := file.library_circuit? (file.positionOf name)
  rw [listed] at here
  exact (congrArg (Option.map Circuit.name) here).trans (congrArg some named)

/-- An entry comes to an instance only if it is listed as one of a known circuit. -/
theorem Checked.instance_of [Arithmetic] (checked : file.Checked) {circuit : CircuitEntry}
    (listed : circuit ∈ file.circuits) {entry : ComponentEntry} {position : Nat}
    (placed : circuit.components[position]? = some entry) {target : CircuitRef}
    (kind : entry.kindIn file.names = .subcircuit target)
    : entry.kind = .circuit
      ∧ (file.findCircuit? (entry.circuit.getD "")).isSome
      ∧ target = file.refOf (entry.circuit.getD "") := by
  obtain ⟨count, known⟩ := checked.components circuit listed position entry placed
  have ends := known.ends
  unfold endCount at ends
  unfold ComponentEntry.kindIn at kind
  cases listedKind : entry.kind with
  | circuit =>
      simp only [listedKind] at ends kind
      split at ends
      · next other found =>
          have found : (file.findCircuit? (entry.circuit.getD "")).isSome := by rw [found]; rfl
          rw [file.names_stand.circuits _ found] at kind
          exact ⟨rfl, found, (ComponentKind.subcircuit.inj kind).symm⟩
      · cases ends
  | entity =>
      simp only [listedKind] at kind
      split at kind <;> cases kind
  | pin | clock | primitive | unknown =>
      simp only [listedKind] at kind
      cases kind

/-- Instances of a checked file refer to circuits of its library. -/
theorem Checked.refers [Arithmetic] (checked : file.Checked) : file.library.Refers := by
  intro circuit member component placed target kind
  obtain ⟨⟨entry, i⟩, listed, rfl⟩ := List.mem_map.mp member
  obtain ⟨⟨part, position⟩, there, rfl⟩ := List.mem_map.mp placed
  have listed := List.mem_of_getElem? (List.mem_zipIdx_iff_getElem?.mp listed)
  obtain ⟨-, found, rfl⟩ :=
    checked.instance_of listed (List.mem_zipIdx_iff_getElem?.mp there) kind
  exact library_knows found

end DesignFile

end SchematicHdl
