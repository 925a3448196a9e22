import SchematicHdl.Proofs.DesignFile.Elaboration

/-! Files that list pins first. A checked design file comes to a library with its top circuit just
when no end of an instance is connected before the pin that it stands for is placed; otherwise the
first such end is the one that is reported.
-/

namespace SchematicHdl

open Outcome

namespace DesignFile

variable {file : DesignFile} {names : NameTable} {circuit position : Nat} {entry : CircuitEntry}
  {component : ComponentEntry} {count : Nat} {library : Library}

-----------------------------------------------------------------------------------------
-- Building components and circuits
-----------------------------------------------------------------------------------------

/-- A checked connection is made, or else it is early. -/
theorem connect_ends [Arithmetic]
    (connecting : file.Connecting circuit position entry component count component.label library)
    (listed : file.circuits[circuit]? = some entry)
    (placedAt : entry.components[position]? = some component)
    (checked : file.ComponentChecked entry component position count) {endIndex : Nat}
    {connection : Option Connection} (found : component.connections[endIndex]? = some connection)
    : Ends (ComponentEntry.connect circuit position endIndex connection) library
        (fun _ library' =>
          file.Connecting circuit position entry component count component.label library'
          ∧ ¬ file.ConnectsEarly circuit position endIndex entry component)
        file.EarlyMisuse := by
  have inOrder := checked.connections connection (List.mem_of_getElem? found)
  have wires_eq := connecting.underway.wires_eq
  cases connection with
  | none =>
      refine ends_of_ok (run_pure_eq_ok.2 rfl) ⟨connecting, fun early => ?_⟩
      obtain ⟨other, connected⟩ := early.connected
      simp [found] at connected
  | some connection =>
      cases connection with
      | wire wire =>
          have inside := CircuitEntry.checkWire_eq_ok.1 inOrder
          rw [← wires_eq] at inside
          exact connecting.attach_ends listed placedAt checked found
            (Library.checkWire_eq_ok inside) (.wire wire)
      | bits bits =>
          have each := forM_eq_ok.1 inOrder
          refine connecting.attach_ends listed placedAt checked found (forM_eq_ok.2 ?_) _
          intro bit member
          obtain ⟨target, there, rfl⟩ := List.mem_map.mp member
          cases target with
          | none => rfl
          | some target =>
              obtain ⟨inside, below⟩ := CircuitEntry.checkBit_eq_ok.1 (each _ there)
              rw [← wires_eq] at inside below
              exact Library.checkWireBit_eq_ok inside below

/-- A component that has just been placed is not connected to anything yet. -/
theorem Underway.connecting_place [Arithmetic]
    (underway : file.Underway circuit entry.wires position library)
    (listed : file.circuits[circuit]? = some entry)
    (placedAt : entry.components[position]? = some component) {kind : ComponentKind}
    {attributes : Attributes} {label : Option String}
    (describes
      : file.Describes component count
          { position, kind, attributes, label, connections := [] })
    (unlabelled : component.isPin = false → label = none)
    : file.Connecting circuit position entry component count none
        (library.changed circuit (fun target =>
          {
            target with
              components :=
                target.components ++ [{ position, kind, attributes, label, connections := [] }]
          })) := by
  constructor
  · refine underway.changed listed ?_ underway.wires_eq ?_ ?_
    · exact fun _ => rfl
    · rw [List.length_append, underway.placed_eq, List.length_singleton]
    · rw [List.countP_append, underway.countP_eq listed, List.take_add_one, placedAt,
        List.countP_append]
      simp [describes.isPin_eq]
  · refine ⟨_, ?_, describes, rfl, unlabelled⟩
    rw [Library.componentAt?, Library.circuitAt_changed (underway.inside listed), if_pos rfl,
      ← underway.placed_eq]
    simp

/-- All connections of a labelled component are made, or the first early one is refused. -/
theorem connections_ends [Arithmetic]
    (connecting : file.Connecting circuit position entry component count component.label library)
    (listed : file.circuits[circuit]? = some entry)
    (placedAt : entry.components[position]? = some component)
    (checked : file.ComponentChecked entry component position count)
    : Ends
        (component.connections.zipIdx.forM (fun pair =>
          ComponentEntry.connect circuit position pair.2 pair.1)) library
        (fun _ library' =>
          file.Underway circuit entry.wires (position + 1) library'
          ∧ ∀ endIndex, ¬ file.ConnectsEarly circuit position endIndex entry component)
        file.EarlyMisuse := by
  refine
    (ends_forM_zipIdx
      (I := fun i library' =>
        file.Connecting circuit position entry component count component.label library'
        ∧ ∀ endIndex < i, ¬ file.ConnectsEarly circuit position endIndex entry component)
      ⟨connecting, fun _ absent => absurd absent (Nat.not_lt_zero _)⟩
      fun i connection s found sofar => ?_).imp fun _ _ done => ⟨?_, ?_⟩
  · refine (connect_ends sofar.1 listed placedAt checked found).imp fun _ _ made => ?_
    refine ⟨made.1, fun endIndex before => ?_⟩
    rcases Nat.lt_succ_iff_lt_or_eq.mp before with earlier | rfl
    · exact sofar.2 endIndex earlier
    · exact made.2
  · exact done.1.underway
  · intro endIndex early
    obtain ⟨connection, connected⟩ := early.connected
    exact done.2 endIndex (List.getElem?_eq_some_iff.mp connected).1 early

/-- A checked component is placed, labelled and connected, or one of its ends is early. -/
theorem component_ends [Arithmetic] (stands : names.Stands file)
    (underway : file.Underway circuit entry.wires position library)
    (listed : file.circuits[circuit]? = some entry)
    (placedAt : entry.components[position]? = some component)
    (checked : file.ComponentChecked entry component position count)
    : Ends (component.build names circuit) library
        (fun _ library' =>
          file.Underway circuit entry.wires (position + 1) library'
          ∧ ∀ endIndex, ¬ file.ConnectsEarly circuit position endIndex entry component)
        file.EarlyMisuse := by
  obtain ⟨kind, attributes, label, run, unlabelled, describes⟩ :=
    place_run circuit stands underway.tag_eq checked
  rw [Build.place_run, underway.placed_eq] at run
  have placed := underway.connecting_place listed placedAt (describes position) unlabelled
  rw [ComponentEntry.build]
  refine ends_after run ?_
  cases labelled : component.label with
  | none => exact connections_ends (labelled ▸ placed) listed placedAt checked
  | some text =>
      dsimp only
      split
      · have ready :=
          placed.updated listed (fun placed => { placed with label := some text }) (fun _ => rfl)
            (fun _ => rfl) (fun _ => rfl) (fun _ _ => rfl)
        exact
          ends_after (Build.updateComponent_run _)
            (connections_ends (labelled ▸ ready) listed placedAt checked)
      · next pin =>
          -- A pin has its name from the start, and its label does not count.
          have isPin : component.isPin = true := by simpa using pin
          obtain ⟨shown, found, describes, stands, -⟩ := placed.here
          refine connections_ends ⟨placed.underway, shown, found, describes, stands, ?_⟩ listed
            placedAt checked
          exact fun notPin => absurd notPin (by simp [isPin])

/-- Nothing of the circuit at a position is connected early. -/
def ClearAt (file : DesignFile) (circuit : Nat) (entry : CircuitEntry) : Prop :=
  ∀ position endIndex component,
    ¬ file.ConnectsEarly circuit position endIndex entry component

/-- The wires of a checked circuit are made in order. -/
theorem wires_ends (wires : entry.WiresChecked) (underway : file.Underway circuit [] 0 library)
    (listed : file.circuits[circuit]? = some entry)
    : Ends (entry.wires.forM (fun width => discard (Build.wire circuit width))) library
        (fun _ => file.Underway circuit entry.wires 0) file.EarlyMisuse := by
  refine
    (ends_forM (I := fun i => file.Underway circuit (entry.wires.take i) 0) underway
      fun i width s found sofar => ?_).imp fun _ _ done => ?_
  · have supported := wires.widths width (List.mem_of_getElem? found)
    refine ends_of_ok (a := ()) (run_discard_eq_ok.2 ⟨_, Build.wire_run supported⟩) ?_
    refine sofar.wired listed ?_ ?_ ?_
    · exact fun _ => rfl
    · rw [sofar.wires_eq, List.take_add_one, found, Option.toList_some]
    · exact fun _ => rfl
  · rwa [List.take_length] at done

/-- The joins of a checked circuit are between its wires. -/
theorem joins_ends (wires : entry.WiresChecked)
    (underway : file.Underway circuit entry.wires 0 library)
    (listed : file.circuits[circuit]? = some entry)
    : Ends (entry.joins.forM (fun (a, b) => Build.join circuit ⟨circuit, a⟩ ⟨circuit, b⟩)) library
        (fun _ => file.Underway circuit entry.wires 0) file.EarlyMisuse := by
  refine ends_forM (I := fun _ => file.Underway circuit entry.wires 0) underway
    fun i pair s found sofar => ?_
  have inside {wire : Nat} (there : entry.checkWire wire = .ok ())
      : s.checkWire circuit ⟨circuit, wire⟩ = .ok () :=
    Library.checkWire_eq_ok (sofar.wires_eq ▸ CircuitEntry.checkWire_eq_ok.1 there)
  obtain ⟨first, second⟩ := wires.joins pair (List.mem_of_getElem? found)
  refine ends_of_ok (Build.checked_update_run (inside first) (inside second) _) ?_
  refine sofar.wired listed ?_ sofar.wires_eq ?_ <;> exact fun _ => rfl

/-- The splices of a checked circuit are between bits of its wires. -/
theorem splices_ends (wires : entry.WiresChecked)
    (underway : file.Underway circuit entry.wires 0 library)
    (listed : file.circuits[circuit]? = some entry)
    : Ends
        (entry.splices.forM (fun (a, b) =>
          Build.splice circuit ⟨circuit, a.wire⟩ a.bit ⟨circuit, b.wire⟩ b.bit)) library
        (fun _ => file.Underway circuit entry.wires 0) file.EarlyMisuse := by
  refine ends_forM (I := fun _ => file.Underway circuit entry.wires 0) underway
    fun i pair s found sofar => ?_
  have below {bit : WireBit} (there : entry.checkBit bit = .ok ())
      : s.checkWireBit circuit ⟨circuit, bit.wire⟩ bit.bit = .ok () := by
    obtain ⟨wire, bit⟩ := CircuitEntry.checkBit_eq_ok.1 there
    rw [← sofar.wires_eq] at wire bit
    exact Library.checkWireBit_eq_ok wire bit
  obtain ⟨first, second⟩ := wires.splices pair (List.mem_of_getElem? found)
  refine ends_of_ok (Build.checked_update_run (below first) (below second) _) ?_
  refine sofar.wired listed ?_ sofar.wires_eq ?_ <;> exact fun _ => rfl

/-- The components of a checked circuit are built in order, until one of their ends is early. -/
theorem components_ends [Arithmetic] (stands : names.Stands file) (checked : file.Checked)
    (underway : file.Underway circuit entry.wires 0 library)
    (listed : file.circuits[circuit]? = some entry)
    : Ends (entry.components.forM (fun component => component.build names circuit)) library
        (fun _ library' =>
          file.Underway circuit entry.wires entry.components.length library'
          ∧ file.ClearAt circuit entry)
        file.EarlyMisuse := by
  have member := List.mem_of_getElem? listed
  refine
    (ends_forM
      (I := fun i library' =>
        file.Underway circuit entry.wires i library'
        ∧ ∀ position < i,
            ∀ endIndex component,
              ¬ file.ConnectsEarly circuit position endIndex entry component)
      ⟨underway, fun _ absent => absurd absent (Nat.not_lt_zero _)⟩
      fun i component s found sofar => ?_).imp fun _ _ done => ⟨done.1, ?_⟩
  · obtain ⟨count, known⟩ := checked.components entry member i component found
    refine (component_ends stands sofar.1 listed found known).imp fun _ _ made => ?_
    refine ⟨made.1, fun position before endIndex other early => ?_⟩
    rcases Nat.lt_succ_iff_lt_or_eq.mp before with earlier | rfl
    · exact sofar.2 position earlier endIndex other early
    · obtain rfl := Option.some.inj (found.symm.trans early.placed)
      exact made.2 endIndex early
  · intro position endIndex component early
    have placed := (List.getElem?_eq_some_iff.mp early.placed).1
    exact done.2 position placed endIndex component early

/-- A checked circuit is filled, or one of its ends is early. -/
theorem circuit_ends [Arithmetic] (stands : names.Stands file) (checked : file.Checked)
    (underway : file.Underway circuit [] 0 library)
    (listed : file.circuits[circuit]? = some entry)
    : Ends (entry.build names circuit) library
        (fun _ library' =>
          file.Underway (circuit + 1) [] 0 library' ∧ file.ClearAt circuit entry)
        file.EarlyMisuse := by
  have wires := checked.wires entry (List.mem_of_getElem? listed)
  rw [CircuitEntry.build]
  refine ends_bind (wires_ends wires underway listed) fun _ wired underway => ?_
  refine ends_bind (joins_ends wires underway listed) fun _ joined underway => ?_
  refine ends_bind (splices_ends wires underway listed) fun _ spliced underway => ?_
  refine ends_bind (components_ends stands checked underway listed) fun _ filled done => ?_
  obtain ⟨underway, clear⟩ := done
  refine
    (ends_forM
      (I := fun _ => file.Underway circuit entry.wires entry.components.length) underway
      fun i body s found sofar => ?_).imp fun _ _ done => ⟨done.next listed, clear⟩
  refine ends_of_ok (Build.updateCircuit_run _) ?_
  refine sofar.wired listed ?_ sofar.wires_eq ?_ <;> exact fun _ => rfl

-----------------------------------------------------------------------------------------
-- Building entities and empty circuits
-----------------------------------------------------------------------------------------

end DesignFile

/-- The entity that an entry describes, at a position of the library. -/
def EntityEntry.entity (entry : EntityEntry) (position : Nat) : ExternalEntity :=
  ⟨position, entry.name, entry.dialect, entry.ports, entry.body⟩

namespace DesignFile

variable {file : DesignFile} {entry : CircuitEntry}

/-- What the names of a file stand for. -/
def names (file : DesignFile) : NameTable where
  entities := file.entities.zipIdx.map (fun entry => (entry.1.name, entry.1.entity entry.2))
  circuits := file.circuits.zipIdx.map (fun entry => (entry.1.name, ⟨0, entry.2, entry.1.name⟩))

/-- The library of a file before any circuit is filled. -/
def bare (file : DesignFile) : Library where
  tag := 0
  circuits := file.circuits.zipIdx.map (fun entry => Circuit.empty entry.2 entry.1.name)
  entities := file.entities.zipIdx.map (fun entry => entry.1.entity entry.2)

/-- All entities are built as they are listed, by induction on the entities. -/
theorem entities_run (entries : List EntityEntry) (library : Library)
    : (entries.mapM (fun entry => do
            return (entry.name, ← Build.entity entry.name entry.dialect entry.ports entry.body)
            : EntityEntry → BuildM (String × ExternalEntity))).run library
      = .ok
          ((entries.zipIdx library.entities.length).map (fun entry =>
              (entry.1.name, entry.1.entity entry.2)),
            {
              library with
                entities :=
                  library.entities
                    ++ (entries.zipIdx library.entities.length).map (fun entry =>
                      entry.1.entity entry.2)
            }) := by
  induction entries generalizing library with
  | nil =>
      rw [List.mapM_nil, List.zipIdx_nil, List.map_nil, List.map_nil, List.append_nil]
      rfl
  | cons entry rest ih =>
      have others :=
        ih
          {
            library with
              entities := library.entities ++ [entry.entity library.entities.length]
          }
      simp only [List.length_append, List.length_singleton] at others
      rw [List.zipIdx_cons, List.map_cons, List.map_cons, List.append_cons]
      exact mapM_run_eq_ok.2 (.cons rfl (mapM_run_eq_ok.1 others))

/-- Circuits with new names are built empty, by induction on the circuits. -/
theorem circuits_run (entries : List CircuitEntry) (library : Library)
    (distinct : (entries.map CircuitEntry.name).Nodup)
    (fresh : ∀ entry ∈ entries, entry.name ∉ library.circuits.map Circuit.name)
    : (entries.mapM (fun entry => do return (entry.name, ← Build.circuit entry.name)
          : CircuitEntry → BuildM (String × CircuitRef))).run library
      = .ok
          ((entries.zipIdx library.circuits.length).map (fun entry =>
              (entry.1.name, ⟨library.tag, entry.2, entry.1.name⟩)),
            {
              library with
                circuits :=
                  library.circuits
                    ++ (entries.zipIdx library.circuits.length).map (fun entry =>
                      Circuit.empty entry.2 entry.1.name)
            }) := by
  induction entries generalizing library with
  | nil =>
      rw [List.mapM_nil, List.zipIdx_nil, List.map_nil, List.map_nil, List.append_nil]
      rfl
  | cons entry rest ih =>
      obtain ⟨unlisted, distinct⟩ := List.nodup_cons.mp distinct
      obtain ⟨here, later⟩ := List.forall_mem_cons.mp fresh
      have missing : library.find? entry.name = none := by
        rw [Library.find?, List.find?_eq_none]
        intro circuit member same
        exact here (of_decide_eq_true same ▸ List.mem_map_of_mem member)
      have added
          : (Build.circuit entry.name).run library
            = .ok
                (⟨library.tag, library.circuits.length, entry.name⟩,
                  {
                    library with
                      circuits :=
                        library.circuits ++ [.empty library.circuits.length entry.name]
                  }) := by
        rw [Build.circuit]
        simp only [StateT.run_bind, StateT.run_get, pure_bind, missing]
        rfl
      have unused (other : CircuitEntry) (member : other ∈ rest)
          : other.name
            ∉ (library.circuits ++ [Circuit.empty library.circuits.length entry.name]).map
                Circuit.name := by
        rw [List.map_append, List.mem_append, not_or]
        refine ⟨later other member, fun same => ?_⟩
        have same : other.name = entry.name := List.mem_singleton.mp same
        exact unlisted (same ▸ List.mem_map_of_mem member)
      have others :=
        ih
          {
            library with
              circuits := library.circuits ++ [.empty library.circuits.length entry.name]
          } distinct unused
      simp only [List.length_append, List.length_singleton] at others
      rw [List.zipIdx_cons, List.map_cons, List.map_cons, List.append_cons]
      exact
        mapM_run_eq_ok.2
          (.cons (run_bind_eq_ok.2 ⟨_, _, added, rfl⟩) (mapM_run_eq_ok.1 others))

/-- The name of an entity stands for the first entity that is listed under it. -/
theorem entity_lookup {entries : List EntityEntry} {name : String} {entry : EntityEntry}
    (found : entries.find? (fun entry => entry.name = name) = some entry) (start : Nat)
    : ∃ entity,
        ((entries.zipIdx start).map (fun entry =>
            (entry.1.name, entry.1.entity entry.2))).lookup name
          = some entity
        ∧ entity.ports = entry.ports := by
  induction entries generalizing start with
  | nil => cases found
  | cons head rest ih =>
      rw [List.find?_cons] at found
      rw [List.zipIdx_cons, List.map_cons, List.lookup_cons]
      by_cases here : head.name = name
      · obtain rfl : head = entry := by simpa [here] using found
        exact ⟨head.entity start, by simp [here], rfl⟩
      · obtain ⟨entity, known, ports⟩ := ih (by simpa [here] using found) (start + 1)
        rw [beq_eq_false_iff_ne.mpr (Ne.symm here)]
        exact ⟨entity, known, ports⟩

/-- The name of a circuit stands for the position at which it is listed. -/
theorem circuit_lookup {entries : List CircuitEntry} {name : String}
    (found : (entries.find? (fun entry => entry.name = name)).isSome) (tag start : Nat)
    : ((entries.zipIdx start).map (fun entry =>
          (entry.1.name, (⟨tag, entry.2, entry.1.name⟩ : CircuitRef)))).lookup name
      = some ⟨tag, start + entries.findIdx (fun entry => entry.name = name), name⟩ := by
  induction entries generalizing start with
  | nil => cases found
  | cons entry rest ih =>
      rw [List.zipIdx_cons, List.map_cons, List.lookup_cons, List.findIdx_cons]
      by_cases here : entry.name = name
      · simp [here]
      · have later := ih (by simpa [List.find?_cons, here] using found) (start + 1)
        simp only [here, decide_false, cond_false, beq_eq_false_iff_ne.mpr (Ne.symm here)]
        rw [later, Nat.add_right_comm, Nat.add_assoc]

/-- The names of a file stand for what is listed under them. -/
theorem names_stand (file : DesignFile) : file.names.Stands file where
  circuits := fun name found => by
    have known := circuit_lookup found 0 0
    rwa [Nat.zero_add] at known
  entities := fun name entry found => entity_lookup found 0

/-- Fills all circuits, in the order of the file. -/
def fill [Arithmetic] (file : DesignFile) : BuildM Unit :=
  (file.circuits.zip file.names.circuits).forM (fun (entry, (_, target)) =>
    entry.build file.names target.position)

/-- A file with different circuit names is built by filling the bare library. -/
theorem build_run [Arithmetic] (distinct : (file.circuits.map CircuitEntry.name).Nodup)
    : file.build.run (.empty 0)
      = StateT.run
          (do
            file.fill
            return (file.names.circuits.lookup file.top).getD ⟨(← get).tag, 0, file.top⟩)
          file.bare := by
  have entities := entities_run file.entities (.empty 0)
  have circuits :=
    circuits_run file.circuits
      ⟨0, [], file.entities.zipIdx.map (fun entry => entry.1.entity entry.2)⟩ distinct (by simp)
  exact (run_bind_of_ok entities).trans (run_bind_of_ok circuits)

-----------------------------------------------------------------------------------------
-- The whole file
-----------------------------------------------------------------------------------------

/-- Every end of an instance that is connected stands for a pin that is placed by then. -/
def PinsFirst (file : DesignFile) : Prop :=
  ∀ circuit ∈ file.circuits.zipIdx,
    ∀ component ∈ circuit.1.components.zipIdx,
      component.1.kind = .circuit
      → ∀ connection ∈ component.1.connections.zipIdx,
          connection.1.isSome
          → connection.2
            < file.placedPins circuit.2 (component.2 + 1)
                (file.positionOf (component.1.circuit.getD ""))

instance (file : DesignFile) : Decidable file.PinsFirst :=
  inferInstanceAs (Decidable (∀ circuit ∈ file.circuits.zipIdx,
    ∀ component ∈ circuit.1.components.zipIdx,
      component.1.kind = .circuit
      → ∀ connection ∈ component.1.connections.zipIdx,
          connection.1.isSome
          → connection.2
            < file.placedPins circuit.2 (component.2 + 1)
                (file.positionOf (component.1.circuit.getD ""))))

theorem pinsFirst_iff
    : file.PinsFirst
      ↔ ∀ circuit entry, file.circuits[circuit]? = some entry → file.ClearAt circuit entry := by
  constructor
  · intro first circuit entry listed position endIndex component early
    obtain ⟨connection, connected⟩ := early.connected
    have inside :=
      first (entry, circuit) (List.mem_zipIdx_iff_getElem?.mpr listed) (component, position)
        (List.mem_zipIdx_iff_getElem?.mpr early.placed) early.kind (some connection, endIndex)
        (List.mem_zipIdx_iff_getElem?.mpr connected) rfl
    exact Nat.not_le_of_lt inside early.early
  · intro clear circuit listed component placed kind connection connected there
    obtain ⟨target, same⟩ := Option.isSome_iff_exists.mp there
    by_contra outside
    have listed := List.mem_zipIdx_iff_getElem?.mp listed
    refine clear circuit.2 circuit.1 listed component.2 connection.2 component.1 ?_
    exact
      {
        listed,
        placed := List.mem_zipIdx_iff_getElem?.mp placed,
        kind,
        connected := ⟨target, same ▸ List.mem_zipIdx_iff_getElem?.mp connected⟩,
        early := Nat.le_of_not_lt outside
      }

theorem EarlyMisuse.not_pinsFirst {misuse : Misuse} (early : file.EarlyMisuse misuse)
    : ¬ file.PinsFirst := by
  cases early with
  | connect early _ => exact fun first => pinsFirst_iff.mp first _ _ early.listed _ _ _ early

/-- Before any circuit is filled, all of them are there and empty. -/
theorem underway_start {library : Library} (tag_eq : library.tag = 0)
    (circuits_eq
      : library.circuits
        = file.circuits.zipIdx.map (fun entry => Circuit.empty entry.2 entry.1.name))
    : file.Underway 0 [] 0 library := by
  have empty (i : Nat) : ∃ position name, library.circuitAt i = .empty position name := by
    rw [Library.circuitAt, Library.circuit?, circuits_eq, List.getElem?_map]
    cases file.circuits.zipIdx[i]? with
    | none => exact ⟨i, "", rfl⟩
    | some entry => exact ⟨entry.2, entry.1.name, rfl⟩
  refine
    {
      tag_eq,
      names_eq := ?_,
      wires_eq := ?_,
      placed_eq := ?_,
      later := fun i _ => ?_,
      pins_eq := fun i => ?_
    }
  · rw [circuits_eq, List.map_map]
    conv_rhs => rw [← List.zipIdx_map_fst 0 file.circuits, List.map_map]
    rfl
  · obtain ⟨position, name, here⟩ := empty 0
    rw [here]
    rfl
  · obtain ⟨position, name, here⟩ := empty 0
    rw [here]
    rfl
  · obtain ⟨position, name, here⟩ := empty i
    rw [here]
    exact ⟨rfl, rfl⟩
  · obtain ⟨position, name, here⟩ := empty i
    rw [here, placedPins]
    split <;> simp [Circuit.instanceEnds, Circuit.empty]

/-- A library holds the circuits of a file, with its top circuit at a place. -/
structure Holds (file : DesignFile) (library : Library) (top : CircuitRef) : Prop where
  names : library.circuits.map Circuit.name = file.circuits.map CircuitEntry.name
  top : ∃ circuit, library.circuit? top.position = some circuit ∧ circuit.name = file.top

/-- A checked file is built with its pins first, or one of its ends is early. -/
theorem build_ends [Arithmetic] (checked : file.Checked)
    : Ends file.build (.empty 0) (fun top library => file.PinsFirst ∧ file.Holds library top)
        file.EarlyMisuse := by
  have stands := file.names_stand
  rw [Ends, build_run checked.circuitNames]
  refine ends_bind
    (ends_forM
      (I := fun i library =>
        file.Underway i [] 0 library
        ∧ ∀ circuit < i,
            ∀ entry, file.circuits[circuit]? = some entry → file.ClearAt circuit entry)
      ⟨underway_start rfl rfl, fun _ absent => absurd absent (Nat.not_lt_zero _)⟩
      fun i pair s found sofar => ?_)
    fun _ library done => ?_
  · obtain ⟨entry, name, target⟩ := pair
    obtain ⟨listed, named⟩ := List.getElem?_zip_eq_some.mp found
    rw [names, List.getElem?_map, List.getElem?_zipIdx, listed] at named
    have position_eq : i = target.position := by
      simpa using congrArg (fun pair => pair.2.position) (Option.some.inj named)
    subst position_eq
    refine (circuit_ends stands checked sofar.1 listed).imp fun _ _ made => ⟨made.1, ?_⟩
    intro circuit before other there
    rcases Nat.lt_succ_iff_lt_or_eq.mp before with earlier | rfl
    · exact sofar.2 circuit earlier other there
    · exact Option.some.inj (listed.symm.trans there) ▸ made.2
  · obtain ⟨underway, clear⟩ := done
    have first : file.PinsFirst := by
      refine pinsFirst_iff.mpr fun circuit entry listed => clear circuit ?_ entry listed
      rw [List.length_zip, names, List.length_map, List.length_zipIdx, Nat.min_self]
      exact (List.getElem?_eq_some_iff.mp listed).1
    refine ends_of_ok (run_bind_eq_ok.2 ⟨_, _, run_get_eq_ok.2 rfl, run_pure_eq_ok.2 rfl⟩)
      ⟨first, underway.names_eq, ?_⟩
    rw [stands.circuits file.top checked.top, Option.getD_some]
    have inside : file.positionOf file.top < file.circuits.length :=
      List.findIdx_lt_length.mpr (List.find?_isSome.mp checked.top)
    have listed := List.getElem?_eq_getElem inside
    have named : file.circuits[file.positionOf file.top].name = file.top :=
      of_decide_eq_true (List.findIdx_getElem (w := inside))
    have built : file.positionOf file.top < library.circuits.length :=
      underway.length_eq ▸ inside
    have names := congrArg (fun names => names[file.positionOf file.top]?) underway.names_eq
    simp only [List.getElem?_map, listed, List.getElem?_eq_getElem built, Option.map_some,
      Option.some.injEq, named] at names
    exact ⟨_, List.getElem?_eq_getElem built, names⟩

/-- A checked design file comes to a library with its top circuit just when its pins come first. All
that can go wrong otherwise is that an end of an instance is missing, because its pin is not placed
yet.
-/
theorem elaborate_of_check [Arithmetic] (checked : file.check = .ok ())
    : (file.PinsFirst
        → ∃ library top, file.elaborate = .ok (library, top) ∧ file.Holds library top)
      ∧ (¬ file.PinsFirst
        → ∃ misuse, file.elaborate = .error (.misuse misuse) ∧ file.EarlyMisuse misuse) := by
  have ends := build_ends (checked_of_check checked)
  unfold Ends at ends
  unfold elaborate
  rw [checked]
  cases built : file.build.run (.empty 0) with
  | ok result =>
      rw [built] at ends
      exact ⟨fun _ => ⟨result.2, result.1, rfl, ends.2⟩, fun other => absurd ends.1 other⟩
  | error misuse =>
      rw [built] at ends
      have early : file.EarlyMisuse misuse := ends
      exact ⟨fun first => absurd first early.not_pinsFirst, fun _ => ⟨misuse, rfl, early⟩⟩

/-- A circuit with one pin. -/
def innerEntry : CircuitEntry :=
  {
    name := "inner",
    wires := [1],
    joins := [],
    splices := [],
    components := [⟨"input_pin", some "a", .empty, [some (.wire 0)], none, none, none, none⟩],
    customBodies := []
  }

/-- A circuit with an instance of another one. -/
def outerEntry : CircuitEntry :=
  {
    name := "main",
    wires := [1],
    joins := [],
    splices := [],
    components := [⟨"circuit", none, .empty, [some (.wire 0)], some "inner", none, none, none⟩],
    customBodies := []
  }

/-- The circuit with the instance comes to a library if it is listed last, and only then. -/
theorem outer_elaborates_last
    : (∃ library top,
        elaborate ⟨"main", [innerEntry, outerEntry], []⟩ = .ok (library, top)
        ∧ Holds ⟨"main", [innerEntry, outerEntry], []⟩ library top)
      ∧ ∃ misuse,
          elaborate ⟨"main", [outerEntry, innerEntry], []⟩ = .error (.misuse misuse)
          ∧ EarlyMisuse ⟨"main", [outerEntry, innerEntry], []⟩ misuse :=
  ⟨(elaborate_of_check (by decide +kernel)).1 (by decide +kernel),
    (elaborate_of_check (by decide +kernel)).2 (by decide +kernel)⟩

/-- Listed first, it passes the check, but its only connection is refused. -/
theorem outer_refused_first
    : check ⟨"main", [outerEntry, innerEntry], []⟩ = .ok ()
      ∧ elaborate ⟨"main", [outerEntry, innerEntry], []⟩
        = .error (.misuse (.noSuchEnd 0 "Circuit \"inner\" #0" "main" 0)) := by
  have checked : check ⟨"main", [outerEntry, innerEntry], []⟩ = .ok () := by decide +kernel
  refine ⟨checked, ?_⟩
  have refused
      : (match build ⟨"main", [outerEntry, innerEntry], []⟩ |>.run (.empty 0) with
          | .error misuse => some misuse
          | .ok _ => none)
        = some (.noSuchEnd 0 "Circuit \"inner\" #0" "main" 0) := by
    decide +kernel
  rw [elaborate, checked]
  split at refused
  · next built =>
      rw [built, ← Option.some.inj refused]
  · cases refused

end DesignFile

end SchematicHdl
