import SchematicHdl.Proofs.Hdl.Writing

/-! Indentation of what is written. Whatever statement or design unit is written, in either language
and from any depth with room for its levels, the page is left at the depth at which it was entered.
Writing ends early for a port that is bound bit by bit to no bits. Such a port is found before its
instance has written a line, so the failing statement leaves no trace on the page. A build with
overflow checks also ends the run at a declaration of no bits.
-/

namespace SchematicHdl.Hdl

open Page
open Outcome

-----------------------------------------------------------------------------------------
-- What cannot be written
-----------------------------------------------------------------------------------------

/-- The statement is an instance with a port that is bound bit by bit to no bits, and the cause
names the port.
-/
inductive Statement.Unbound : Statement → GenerationError → Prop
  | port {inst : Instance} {map : PortMap} (listed : map ∈ inst.ports)
    (empty : map.actual = .perBit [])
    : Unbound (.instantiate inst) (.internal (.emptyBitMap map.formal inst.label))

/-- One of the statements of the unit has such a port. -/
def DesignUnit.Unbound (unit : DesignUnit) (cause : GenerationError) : Prop :=
  ∃ statement ∈ unit.architecture.statements, statement.Unbound cause

/-- A port or a signal of the unit is of no bits. -/
def DesignUnit.HasBitless (unit : DesignUnit) : Prop :=
  (∃ port ∈ unit.ports, port.width = .fixed 0)
  ∨ ∃ signal ∈ unit.architecture.signals, signal.width = .fixed 0

theorem PortMap.isEmpty_iff (map : PortMap) : map.isEmpty = true ↔ map.actual = .perBit [] := by
  unfold isEmpty
  split
  · next empty => simp [empty]
  · next other => simpa using other

theorem Instance.cause?_eq_none_iff (inst : Instance)
    : inst.cause? = none ↔ ∀ map ∈ inst.ports, map.actual ≠ .perBit [] := by
  simp only [cause?, Option.map_eq_none_iff, List.find?_eq_none, PortMap.isEmpty_iff, ne_eq]

theorem Statement.unbound_of_cause? {statement : Statement} {cause : GenerationError}
    (found : statement.cause? = some cause)
    : statement.Unbound cause := by
  cases statement with
  | instantiate inst =>
      obtain ⟨map, first, rfl⟩ := Option.map_eq_some_iff.mp found
      have empty : map.isEmpty = true := List.find?_some first
      exact .port (List.mem_of_find?_eq_some first) (map.isEmpty_iff.mp empty)
  | remark | blank | assign | conditional | select | register | raw => cases found

theorem Statement.not_unbound_of_cause? {statement : Statement} (none : statement.cause? = none)
    (cause : GenerationError)
    : ¬statement.Unbound cause := by
  rintro ⟨listed, empty⟩
  exact (Instance.cause?_eq_none_iff _).mp none _ listed empty

/-- The depth does not run out, because the only cause is another one. -/
theorem Statement.Unbound.ne_indentUnderflow {statement : Statement} {cause : GenerationError}
    (unbound : statement.Unbound cause)
    : cause ≠ .internal .indentUnderflow := by
  cases unbound
  nofun

theorem Width.cause?_eq_some [Arithmetic] {width : Width} {cause : GenerationError}
    : width.cause? = some cause
      ↔ width = .fixed 0 ∧ Arithmetic.checksOverflow = true ∧ cause = .overflow .subtract := by
  unfold cause?
  split
  · simp only [Option.ite_none_right_eq_some, Option.some.injEq, true_and]
    exact and_congr_right fun _ => eq_comm
  · next other => exact iff_of_false nofun fun bitless => other bitless.1

/-- A unit is written unless it has a port that is bound to no bits or, where the build checks, a
declaration of no bits.
-/
theorem DesignUnit.cause?_cases [Arithmetic] (unit : DesignUnit)
    : (∀ cause,
        unit.cause? = some cause
        → unit.Unbound cause
          ∨ cause = .overflow .subtract ∧ Arithmetic.checksOverflow = true ∧ unit.HasBitless)
      ∧ (unit.cause? = none
        → (∀ cause, ¬unit.Unbound cause)
          ∧ (Arithmetic.checksOverflow = true → ¬unit.HasBitless)) := by
  unfold cause?
  constructor
  · intro cause found
    rcases Option.or_eq_some_iff.mp found with inPorts | ⟨-, found⟩
    · obtain ⟨port, listed, here⟩ := List.exists_of_findSome?_eq_some inPorts
      obtain ⟨bitless, checks, rfl⟩ := Width.cause?_eq_some.mp here
      exact .inr ⟨rfl, checks, .inl ⟨port, listed, bitless⟩⟩
    rcases Option.or_eq_some_iff.mp found with inSignals | ⟨-, found⟩
    · obtain ⟨signal, listed, here⟩ := List.exists_of_findSome?_eq_some inSignals
      obtain ⟨bitless, checks, rfl⟩ := Width.cause?_eq_some.mp here
      exact .inr ⟨rfl, checks, .inr ⟨signal, listed, bitless⟩⟩
    · obtain ⟨statement, listed, first⟩ := List.exists_of_findSome?_eq_some found
      exact .inl ⟨statement, listed, Statement.unbound_of_cause? first⟩
  · intro none
    simp only [Option.or_eq_none_iff, List.findSome?_eq_none_iff, Architecture.cause?] at none
    obtain ⟨ports, signals, statements⟩ := none
    refine ⟨?_, fun checks => ?_⟩
    · rintro cause ⟨statement, listed, unbound⟩
      exact Statement.not_unbound_of_cause? (statements statement listed) cause unbound
    · rintro (⟨port, listed, bitless⟩ | ⟨signal, listed, bitless⟩)
      · have failed := Width.cause?_eq_some.mpr ⟨bitless, checks, rfl⟩
        simp [ports port listed] at failed
      · have failed := Width.cause?_eq_some.mpr ⟨bitless, checks, rfl⟩
        simp [signals signal listed] at failed

-----------------------------------------------------------------------------------------
-- Statements and units
-----------------------------------------------------------------------------------------

/-- A statement that cannot be written is an instance, so it leaves the page as it is. -/
theorem leads_writeStatement [Arithmetic] (dialect : Dialect) (statement : Statement) {page : Page}
    (word : page.depth < Word.size)
    : Leads (writeStatement dialect statement) page
        (fun _ page' => statement.cause? = none ∧ page'.depth = page.depth)
        (fun cause page' =>
          statement.cause? = some cause ∧ page' = page
          ∨ cause = crowded ∧ Word.size ≤ page.depth + statementLevels) := by
  cases statement with
  | instantiate inst => exact leads_writeInstance dialect inst word
  | remark | blank | assign | conditional | select | register | raw =>
      -- the other statements never fail where there is room
      refine (writes_writeStatement dialect _ page word).imp (fun _ _ ended => ended) ?_
      exact fun _ _ failed => .inr (failed.resolve_left nofun)

/-- An instance with a port that is bound to no bits. -/
def unboundInstance : Statement := .instantiate ⟨"u", "Leaf", [], [⟨"d", .perBit []⟩]⟩

/-- A design unit with a port of no bits. -/
def bitlessUnit : DesignUnit := ⟨"Main", [], [⟨"d", .input, .fixed 0⟩], ⟨[], [.blank]⟩⟩

end SchematicHdl.Hdl
