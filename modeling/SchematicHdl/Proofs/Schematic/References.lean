import SchematicHdl.Proofs.Schematic.Building

/-! References within a library. Whatever is built, joins, splices and attached ends refer to wires
of their own circuit; if instances are placed of circuits that the library holds, they keep
referring to circuits that it holds.
-/

namespace SchematicHdl

open Net (HasBit)
open Outcome

-----------------------------------------------------------------------------------------
-- Wires
-----------------------------------------------------------------------------------------

/-- The wires of a circuit have bits, and whatever refers to wires refers to those of the circuit.
-/
structure Circuit.Wired (circuit : Circuit) : Prop where
  widths : ∀ width ∈ circuit.wires, 0 < width
  joins
    : ∀ a b, (a, b) ∈ circuit.joins → a < circuit.wires.length ∧ b < circuit.wires.length
  splices
    : ∀ a b, (a, b) ∈ circuit.splices → HasBit circuit.wires a ∧ HasBit circuit.wires b
  attached
    : ∀ component ∈ circuit.components,
        ∀ entry ∈ component.connections, circuit.Offers entry.2

theorem Net.HasBit.mono {wires more : List Nat} (within : wires <+: more) {bit : WireBit}
    (has : HasBit wires bit)
    : HasBit more bit := by
  obtain ⟨width, found, lower⟩ := has
  obtain ⟨rest, rfl⟩ := within
  have inside := (List.getElem?_eq_some_iff.mp found).1
  exact ⟨width, by rwa [List.getElem?_append_left inside], lower⟩

theorem Circuit.Offers.mono {circuit larger : Circuit} (within : circuit.wires <+: larger.wires)
    {connection : Connection} (offers : circuit.Offers connection)
    : larger.Offers connection := by
  cases connection with
  | wire wire => exact Nat.lt_of_lt_of_le offers within.length_le
  | bits bits => exact fun bit listed => HasBit.mono within (offers bit listed)

/-- A circuit that is extended within its wires stays wired. -/
theorem Circuit.Wired.extend {before after : Circuit} (wired : before.Wired)
    (extended : before.Extends after) (components : after.components = before.components)
    : after.Wired where
  widths := fun width member => (extended.widths width member).elim (wired.widths width) id
  joins := by
    intro a b member
    have more := extended.wires.length_le
    rcases extended.joins a b member with old | new
    · have inside := wired.joins a b old
      exact ⟨Nat.lt_of_lt_of_le inside.1 more, Nat.lt_of_lt_of_le inside.2 more⟩
    · exact ⟨Nat.lt_of_lt_of_le new.1 more, Nat.lt_of_lt_of_le new.2 more⟩
  splices := by
    intro a b member
    have more {bit : WireBit} := @HasBit.mono _ _ extended.wires bit
    rcases extended.splices a b member with old | new
    · exact (wired.splices a b old).imp more more
    · exact new.imp more more
  attached := by
    intro component member entry listed
    rw [components] at member
    exact (wired.attached component member entry listed).mono extended.wires

namespace Library

/-- A change of one circuit keeps what all circuits satisfy, if it keeps it of that circuit. -/
theorem forall_circuits_modify {library : Library} {P : Circuit → Prop} {position : Nat}
    {change : Circuit → Circuit} (all : ∀ circuit ∈ library.circuits, P circuit)
    (kept : P (library.circuitAt position) → P (change (library.circuitAt position)))
    : ∀ circuit ∈ library.circuits.modify position change, P circuit := by
  intro circuit member
  obtain ⟨i, found⟩ := List.getElem?_of_mem member
  rw [List.getElem?_modify] at found
  obtain ⟨before, there, same⟩ := Option.map_eq_some_iff.mp found
  have listed := List.mem_of_getElem? there
  split at same
  · next here =>
      have at_position : library.circuitAt position = before := by
        simp [circuitAt, circuit?, here, there]
      rw [at_position] at kept
      exact same ▸ kept (all before listed)
  · exact same ▸ all before listed

/-- Every step keeps all circuits wired, by cases on what the step does. -/
theorem wired_grows {library library' : Library} {step : BuildStep}
    (wired : ∀ circuit ∈ library.circuits, circuit.Wired)
    (grows : library.Grows step library')
    : ∀ circuit ∈ library'.circuits, circuit.Wired := by
  cases grows with
  | circuit name =>
      intro circuit member
      rcases List.mem_append.mp member with earlier | new
      · exact wired circuit earlier
      · obtain rfl := List.mem_singleton.mp new
        constructor <;> simp [Circuit.empty]
  | entity => exact wired
  | wiring position change _ _ components extended =>
      exact forall_circuits_modify wired fun old => old.extend extended (components _)
  | place position component _ _ _ unattached =>
      refine forall_circuits_modify wired fun old => ?_
      refine ⟨old.widths, old.joins, old.splices, fun placed member entry listed => ?_⟩
      rcases List.mem_append.mp member with earlier | new
      · exact old.attached placed earlier entry listed
      · obtain rfl := List.mem_singleton.mp new
        rw [unattached] at listed
        cases listed
  | component position index change _ _ _ connections =>
      refine forall_circuits_modify wired fun old => ?_
      refine ⟨old.widths, old.joins, old.splices, fun placed member entry listed => ?_⟩
      rcases mem_of_mem_modify member with earlier | ⟨before, there, rfl⟩
      · exact old.attached placed earlier entry listed
      · rcases connections before entry listed with kept | offered
        · exact old.attached before there entry kept
        · exact offered

/-- All circuits are wired, by induction on the steps. -/
theorem Built.wired [Arithmetic] {library : Library} (built : library.Built)
    : ∀ circuit ∈ library.circuits, circuit.Wired := by
  induction built with
  | empty tag => simp [Library.empty]
  | step _ _ _ performed ih => exact wired_grows ih (BuildStep.perform_grows performed)

end Library

-----------------------------------------------------------------------------------------
-- Instances
-----------------------------------------------------------------------------------------

namespace Library

/-- The library holds the circuit under its position and name. -/
def Knows (library : Library) (target : CircuitRef) : Prop :=
  target.library = library.tag
    ∧ library.circuits[target.position]?.map Circuit.name = some target.name

instance (library : Library) (target : CircuitRef) : Decidable (library.Knows target) :=
  inferInstanceAs (Decidable (_ ∧ _))

theorem Knows.inside {library : Library} {target : CircuitRef} (known : library.Knows target)
    : target.position < library.circuits.length := by
  obtain ⟨circuit, found, -⟩ := Option.map_eq_some_iff.mp known.2
  exact (List.getElem?_eq_some_iff.mp found).1

theorem Knows.name_eq {library : Library} {target : CircuitRef} (known : library.Knows target)
    : (library.circuitAt target.position).name = target.name := by
  obtain ⟨circuit, found, named⟩ := Option.map_eq_some_iff.mp known.2
  simp [circuitAt, circuit?, found, named]

/-- Steps keep the circuits that a library holds under their positions and names. -/
theorem Knows.grows {library library' : Library} {step : BuildStep} {target : CircuitRef}
    (known : library.Knows target) (grows : library.Grows step library')
    : library'.Knows target := by
  obtain ⟨tag, named⟩ := known
  have changed {position : Nat} {change : Circuit → Circuit}
      (name : ∀ target, (change target).name = target.name)
      : (library.circuits.modify position change)[target.position]?.map Circuit.name
        = some target.name := by
    rw [← List.getElem?_map, map_modify_eq name, List.getElem?_map, named]
  cases grows with
  | circuit name =>
      have inside := Knows.inside ⟨tag, named⟩
      exact ⟨tag, by rwa [List.getElem?_append_left inside]⟩
  | entity => exact ⟨tag, named⟩
  | wiring _ _ _ name => exact ⟨tag, changed name⟩
  | place => exact ⟨tag, changed fun _ => rfl⟩
  | component => exact ⟨tag, changed fun _ => rfl⟩

end Library

namespace BuildStep

/-- The circuit that an instance is placed of. -/
def target? : BuildStep → Option CircuitRef
  | .subcircuit _ target => some target
  | _ => none

/-- If an instance is placed, then of a circuit that the library holds. -/
def Known (library : Library) (step : BuildStep) : Prop :=
  ∀ target ∈ step.target?, library.Knows target

instance (library : Library) (step : BuildStep) : Decidable (step.Known library) :=
  inferInstanceAs (Decidable (∀ target ∈ step.target?, library.Knows target))

end BuildStep

namespace Library

/-- The library is built from an empty one, its instances being those of its own circuits. -/
def BuiltWithin [Arithmetic] : Library → Prop := BuiltBy (fun library step => step.Known library)

/-- The library that steps lead to from the empty one, if all of them are allowed. -/
def buildWithin? [Arithmetic] (steps : List BuildStep) : Option Library :=
  steps.foldlM
    (fun library step =>
      if step.Known library then (step.perform.run library).toOption.map Prod.snd else none)
    (.empty 0)

theorem builtWithin_of_buildWithin? [Arithmetic] {steps : List BuildStep} {library : Library}
    (h : buildWithin? steps = some library)
    : library.BuiltWithin := by
  have onwards
      : ∀ (steps : List BuildStep) (start : Library),
          start.BuiltWithin
          → steps.foldlM
              (fun library step =>
                if step.Known library then (step.perform.run library).toOption.map Prod.snd
                else none)
              start
            = some library
          → library.BuiltWithin := by
    intro steps
    induction steps with
    | nil =>
        intro start built same
        obtain rfl : start = library := by simpa using same
        exact built
    | cons step steps ih =>
        intro start built folded
        rw [List.foldlM_cons, Option.bind_eq_bind, Option.bind_eq_some_iff] at folded
        obtain ⟨next, taken, rest⟩ := folded
        split at taken
        · next known =>
            obtain ⟨⟨⟨⟩, middle⟩, performed, rfl⟩ := Option.map_eq_some_iff.mp taken
            exact ih _ (.step built step known (toOption_eq_some.1 performed)) rest
        · cases taken
  exact onwards steps _ (.empty 0) h

/-- Instances refer to circuits that the library holds. -/
def Refers (library : Library) : Prop :=
  ∀ circuit ∈ library.circuits,
    ∀ component ∈ circuit.components,
      ∀ target, component.kind = .subcircuit target → library.Knows target

/-- Every step keeps the references, by cases on what the step does. -/
theorem Refers.grows {library library' : Library} {step : BuildStep} (refers : library.Refers)
    (known : step.Known library) (grows : library.Grows step library')
    : library'.Refers := by
  have kept : ∀ circuit ∈ library.circuits, ∀ component ∈ circuit.components, ∀ target,
      component.kind = .subcircuit target → library'.Knows target :=
    fun circuit member component placed target kind =>
      (refers circuit member component placed target kind).grows grows
  have holds {target : CircuitRef} (held : library.Knows target) : library'.Knows target :=
    held.grows grows
  cases grows with
  | circuit name =>
      intro circuit member component placed
      rcases List.mem_append.mp member with earlier | new
      · exact kept circuit earlier component placed
      · obtain rfl := List.mem_singleton.mp new
        cases placed
  | entity => exact kept
  | wiring position change _ _ components =>
      refine Library.forall_circuits_modify kept fun old => ?_
      rw [components]
      exact old
  | place position component _ _ _ _ subcircuit =>
      refine Library.forall_circuits_modify kept fun old placed listed target kind => ?_
      rcases List.mem_append.mp listed with earlier | new
      · exact old placed earlier target kind
      · obtain rfl := List.mem_singleton.mp new
        have placed := subcircuit target kind
        exact holds (known target (by rw [placed]; rfl))
  | component position index change _ same =>
      refine Library.forall_circuits_modify kept fun old placed listed target kind => ?_
      rcases mem_of_mem_modify listed with earlier | ⟨before, there, rfl⟩
      · exact old placed earlier target kind
      · rw [same] at kind
        exact old before there target kind

/-- Instances refer to circuits of the library, by induction on the steps. -/
theorem BuiltWithin.refers [Arithmetic] {library : Library} (built : library.BuiltWithin)
    : library.Refers := by
  induction built with
  | empty tag => simp [Refers, Library.empty]
  | step _ _ known performed ih => exact ih.grows known (BuildStep.perform_grows performed)

end Library

end SchematicHdl
