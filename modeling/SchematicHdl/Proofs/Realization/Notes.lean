import Mathlib.Data.List.Nodup
import SchematicHdl.Proofs.Outcome
import SchematicHdl.Proofs.Text
import SchematicHdl.Realization.Placement

/-! Notes of placed components. Whatever a placed component becomes, all that it does to the notes
is to warn and to take dangling wires: it withdraws no warning, and no two dangling wires of a
circuit have the same name.
-/

namespace SchematicHdl

open Hdl (Actual Expr Instance Statement)
open Outcome

/-- The name of a dangling wire. -/
def openWireName (number : Nat) : String := s!"s_LOGISIM_OPEN_{number}"

theorem openWireName_injective : Function.Injective openWireName := by
  intro a b same
  have texts := congrArg String.toList same
  unfold openWireName at texts
  simp only [toString, String.toList_append, Nat.toList_repr, List.append_cancel_left_eq] at texts
  exact (Text.digits_suffix_inj (.nil _) (.nil _) (congrArg (· ++ []) texts)).1

namespace Notes

/-- A new dangling wire, numbered on from those before. -/
def withOpenWire (notes : Notes) : Notes :=
  { notes with openWires := notes.openWires ++ [openWireName notes.openWires.length] }

/-- An order of notes in which a warning goes up. -/
structure Order (le : Notes → Notes → Prop) : Prop where
  refl : ∀ notes, le notes notes
  trans : ∀ {first second third}, le first second → le second third → le first third
  warn : ∀ notes message, le notes { notes with warnings := notes.warnings ++ [message] }

/-- Warnings only become more. -/
theorem order_warnings : Order (fun before after => before.warnings ⊆ after.warnings) where
  refl _ := List.Subset.refl _
  trans := List.Subset.trans
  warn _ _ := List.subset_append_left _ _

/-- Dangling wires stay the same. -/
theorem order_openWires : Order (fun before after => after.openWires = before.openWires) where
  refl _ := rfl
  trans first second := second.trans first
  warn _ _ := rfl

end Notes

namespace Placement

variable {placement : Placement} {notes notes' : Notes} {le : Notes → Notes → Prop}

-----------------------------------------------------------------------------------------
-- What placed components note
-----------------------------------------------------------------------------------------

theorem openWire_succeeds {expr : Expr}
    : Succeeds openWire notes expr notes'
      ↔ expr = .ref (openWireName notes.openWires.length) ∧ notes' = notes.withOpenWire := by
  simp only [openWire, succeeds_bind, succeeds_get, succeeds_modify, succeeds_pure]
  constructor
  · rintro ⟨_, _, ⟨rfl, rfl⟩, _, _, rfl, rfl, rfl⟩
    exact ⟨rfl, rfl⟩
  · rintro ⟨rfl, rfl⟩
    exact ⟨_, _, ⟨rfl, rfl⟩, (), _, rfl, rfl, rfl⟩

/-- A port is bound to what its actual is formed as. -/
theorem bindPort_succeeds {name : String} {formed : PlacementM Actual} {map : Hdl.PortMap}
    : Succeeds (do return Hdl.PortMap.mk name (← formed)) notes map notes'
      ↔ ∃ actual, Succeeds formed notes actual notes' ∧ map = ⟨name, actual⟩ := by
  simp only [succeeds_bind, succeeds_pure]
  constructor
  · rintro ⟨actual, _, made, rfl, rfl⟩
    exact ⟨actual, made, rfl⟩
  · rintro ⟨actual, made, rfl⟩
    exact ⟨actual, _, made, rfl, rfl⟩

/-- An instance binds its inputs and then the ports that it drives. -/
theorem instantiate_succeeds {form : Form} {inst : Instance}
    : Succeeds (placement.instantiate form) notes inst notes'
      ↔ ∃ inputs driven middle,
          Succeeds
              (form.inputs.mapM (fun port => do
                return ⟨port.name, ← placement.inputActual port⟩))
              notes inputs middle
          ∧ Succeeds
              (form.drivingPorts.mapM (fun port => do
                return ⟨port.name, ← placement.outputActual port⟩))
              middle driven notes'
          ∧ inst = ⟨placement.label, form.name, form.parameters, inputs ++ driven⟩ := by
  simp only [instantiate, succeeds_bind, succeeds_pure]
  constructor
  · rintro ⟨inputs, middle, first, driven, _, second, rfl, rfl⟩
    exact ⟨inputs, driven, middle, first, second, rfl⟩
  · rintro ⟨inputs, driven, middle, first, second, rfl⟩
    exact ⟨inputs, middle, first, driven, _, second, rfl, rfl⟩

section Order

variable (order : Notes.Order le)
include order

theorem warnOfClock_le {source : ClockSource}
    (warned : Succeeds (placement.warnOfClock source) notes () notes')
    : le notes notes' := by
  cases source with
  | tree => exact (succeeds_pure.1 warned).2 ▸ order.refl _
  | gated | unconnected => exact succeeds_modify.1 warned ▸ order.warn _ _

theorem inputActual_le {port : Port} {actual : Actual}
    (made : Succeeds (placement.inputActual port) notes actual notes')
    : le notes notes' := by
  have same := order.refl notes
  unfold inputActual at made
  split at made
  · obtain ⟨-, rfl⟩ := succeeds_ofExcept.1 made
    exact same
  · simp only [succeeds_bind, succeeds_ofExcept] at made
    obtain ⟨bits, _, ⟨-, rfl⟩, made⟩ := made
    split at made <;> exact (succeeds_pure.1 made).2 ▸ same
  · simp only [succeeds_bind, succeeds_ofExcept, succeeds_pure] at made
    obtain ⟨_, _, ⟨-, rfl⟩, _, _, warned, -, rfl⟩ := made
    exact warnOfClock_le order warned
  · simp only [succeeds_bind, succeeds_ofExcept, succeeds_pure] at made
    obtain ⟨_, _, ⟨-, rfl⟩, -, rfl⟩ := made
    exact same
  · simp only [succeeds_bind, succeeds_ofExcept, succeeds_pure] at made
    obtain ⟨_, _, ⟨-, rfl⟩, -, rfl⟩ := made
    exact same
  · exact (succeeds_pure.1 made).2 ▸ same

/-- One item after the other, by the chain of the notes. -/
theorem mapM_le {α β : Type} {make : α → PlacementM β} {items : List α} {results : List β}
    (each
      : ∀ item notes result notes', Succeeds (make item) notes result notes' → le notes notes')
    (made : Succeeds (items.mapM make) notes results notes')
    : le notes notes' :=
  (mapM_succeeds.1 made).keeps (P := fun later => le notes later)
    (fun item s result s' step sofar => order.trans sofar (each item s result s' step))
    (order.refl _)

theorem inlineStatements_le {realization : Realization} {statements : List Statement}
    (made : Succeeds (placement.inlineStatements realization) notes statements notes')
    : le notes notes' := by
  have same := order.refl notes
  unfold inlineStatements at made
  split at made
  · simp only [succeeds_bind, succeeds_ofExcept] at made
    obtain ⟨unconnected, _, ⟨-, rfl⟩, made⟩ := made
    split at made
    · exact (succeeds_pure.1 made).2 ▸ same
    split at made
    · exact (succeeds_ofExcept.1 made).2 ▸ same
    · simp only [gateBody, succeeds_bind, succeeds_ofExcept] at made
      obtain ⟨used, _, ⟨-, rfl⟩, made⟩ := made
      split at made
      · simp only [succeeds_bind] at made
        obtain ⟨_, _, warned, made⟩ := made
        rw [← (succeeds_pure.1 made).2, ← succeeds_modify.1 warned]
        exact order.warn _ _
      · exact (succeeds_ofExcept.1 made).2 ▸ same
  · exact absurd made not_succeeds_throw

variable (opens : ∀ notes, le notes notes.withOpenWire)
include opens

theorem orOpenWire_le {expr? : Option Expr} {expr : Expr}
    (made : Succeeds (orOpenWire expr?) notes expr notes')
    : le notes notes' := by
  cases expr? with
  | some => exact (succeeds_pure.1 made).2 ▸ order.refl _
  | none => exact (openWire_succeeds.1 made).2 ▸ opens notes

theorem outputActual_le {port : Port} {actual : Actual}
    (made : Succeeds (placement.outputActual port) notes actual notes')
    : le notes notes' := by
  have same := order.refl notes
  unfold outputActual at made
  split at made
  · simp only [outputEnd, succeeds_bind, succeeds_ofExcept] at made
    obtain ⟨resolved, _, ⟨-, rfl⟩, made⟩ := made
    split at made
    · exact (succeeds_pure.1 made).2 ▸ same
    split at made
    · exact (succeeds_pure.1 made).2 ▸ same
    · simp only [succeeds_bind, succeeds_pure] at made
      obtain ⟨bits, _, made, -, rfl⟩ := made
      exact mapM_le order (fun _ _ _ _ => orOpenWire_le order opens) made
  · split at made
    · exact (succeeds_pure.1 made).2 ▸ same
    · simp only [succeeds_bind, succeeds_pure] at made
      obtain ⟨bits, _, made, -, rfl⟩ := made
      refine mapM_le order (fun endIndex _ _ _ step => ?_) made
      simp only [succeeds_bind, succeeds_ofExcept] at step
      obtain ⟨bit, _, ⟨-, rfl⟩, step⟩ := step
      exact orOpenWire_le order opens step
  · simp only [succeeds_bind, succeeds_ofExcept, succeeds_pure] at made
    obtain ⟨_, _, ⟨-, rfl⟩, -, rfl⟩ := made
    exact same
  · exact absurd made not_succeeds_throw

theorem instantiate_le {form : Form} {inst : Instance}
    (made : Succeeds (placement.instantiate form) notes inst notes')
    : le notes notes' := by
  obtain ⟨inputs, driven, middle, first, second, -⟩ := instantiate_succeeds.1 made
  refine order.trans (mapM_le order ?_ first) (mapM_le order ?_ second)
  · intro port notes map notes' step
    obtain ⟨_, step, -⟩ := bindPort_succeeds.1 step
    exact inputActual_le order step
  · intro port notes map notes' step
    obtain ⟨_, step, -⟩ := bindPort_succeeds.1 step
    exact outputActual_le order opens step

end Order

-----------------------------------------------------------------------------------------
-- Warnings
-----------------------------------------------------------------------------------------

theorem instantiate_warnings {form : Form} {inst : Instance}
    (made : Succeeds (placement.instantiate form) notes inst notes')
    : notes.warnings ⊆ notes'.warnings :=
  instantiate_le Notes.order_warnings (fun _ => List.Subset.refl _) made

theorem inlineStatements_warnings {realization : Realization} {statements : List Statement}
    (made : Succeeds (placement.inlineStatements realization) notes statements notes')
    : notes.warnings ⊆ notes'.warnings :=
  inlineStatements_le Notes.order_warnings made

end Placement

-----------------------------------------------------------------------------------------
-- Dangling wires
-----------------------------------------------------------------------------------------

namespace Notes

/-- Dangling wires have been added, numbered on from those before. -/
structure Adds (before : Notes) (wires : List String) (after : Notes) : Prop where
  openWires_eq : after.openWires = before.openWires ++ wires
  numbered : wires = (List.range' before.openWires.length wires.length).map openWireName

theorem adds_nil {before after : Notes} (same : after.openWires = before.openWires)
    : before.Adds [] after :=
  ⟨by rw [same, List.append_nil], rfl⟩

theorem adds_withOpenWire (notes : Notes)
    : notes.Adds [openWireName notes.openWires.length] notes.withOpenWire :=
  ⟨rfl, rfl⟩

theorem Adds.append {before middle after : Notes} {wires more : List String}
    (first : before.Adds wires middle) (second : middle.Adds more after)
    : before.Adds (wires ++ more) after := by
  refine ⟨by rw [second.openWires_eq, first.openWires_eq, List.append_assoc], ?_⟩
  have later := second.numbered
  rw [first.openWires_eq, List.length_append] at later
  rw [List.length_append, ← List.range'_append_1, List.map_append, ← first.numbered, ← later]

theorem order_adds : Order (fun before after => ∃ wires, before.Adds wires after) where
  refl _ := ⟨[], adds_nil rfl⟩
  trans := fun ⟨_, first⟩ ⟨_, second⟩ => ⟨_, first.append second⟩
  warn _ _ := ⟨[], adds_nil rfl⟩

theorem exists_adds_withOpenWire (notes : Notes) : ∃ wires, notes.Adds wires notes.withOpenWire :=
  ⟨_, notes.adds_withOpenWire⟩

/-- The dangling wires are numbered from zero on. -/
def Numbered (notes : Notes) : Prop :=
  notes.openWires = (List.range notes.openWires.length).map openWireName

theorem Numbered.adds {before after : Notes} {wires : List String} (numbered : before.Numbered)
    (adds : before.Adds wires after)
    : after.Numbered := by
  have all := adds.numbered
  rw [Numbered, List.range_eq_range'] at numbered
  rw [Numbered, adds.openWires_eq, List.length_append, List.range_eq_range',
    ← List.range'_append_1, List.map_append, Nat.zero_add, ← all, ← numbered]

theorem Numbered.nodup {notes : Notes} (numbered : notes.Numbered) : notes.openWires.Nodup := by
  rw [numbered]
  exact List.Nodup.map openWireName_injective List.nodup_range

/-- What the placements before leave behind, in any order. -/
inductive Placed : Notes → Prop
  | empty : Placed .empty
  | warned {notes warnings} (earlier : Placed notes) : Placed { notes with warnings }
  | instantiated {placement form inst notes notes'} (earlier : Placed notes)
    (made : Succeeds (Placement.instantiate placement form) notes inst notes')
    : Placed notes'
  | inlined {placement realization statements notes notes'} (earlier : Placed notes)
    (made : Succeeds (Placement.inlineStatements placement realization) notes statements notes')
    : Placed notes'

/-- The dangling wires of a circuit are numbered, by induction on the placements. -/
theorem Placed.numbered {notes : Notes} (placed : notes.Placed) : notes.Numbered := by
  induction placed with
  | empty => rfl
  | warned _ numbered => exact numbered
  | instantiated _ made numbered =>
      obtain ⟨wires, adds⟩ := Placement.instantiate_le order_adds exists_adds_withOpenWire made
      exact numbered.adds adds
  | inlined _ made numbered =>
      obtain ⟨wires, adds⟩ := Placement.inlineStatements_le order_adds made
      exact numbered.adds adds

/-- What each step adds to the notes, all steps add, by induction on the steps. -/
theorem Adds.threaded {α β : Type} {step : α → Notes → β → Notes → Prop} {xs : List α}
    {ys : List β} {before after : Notes} (threaded : Threaded step xs before ys after)
    {R : α → β → List String → Prop}
    (each
      : ∀ x ∈ xs,
          ∀ notes y notes',
            step x notes y notes' → ∃ wires, notes.Adds wires notes' ∧ R x y wires)
    : ∃ pairs : List (β × List String),
        pairs.map Prod.fst = ys
        ∧ before.Adds (pairs.flatMap Prod.snd) after
        ∧ List.Forall₂ (fun x pair => R x pair.1 pair.2) xs pairs := by
  induction threaded with
  | nil => exact ⟨[], rfl, Notes.adds_nil rfl, .nil⟩
  | @cons x xs before y middle ys after head tail ih =>
      obtain ⟨here, later⟩ := List.forall_mem_cons.mp each
      obtain ⟨wires, adds, related⟩ := here _ _ _ head
      obtain ⟨pairs, rfl, more, rest⟩ := ih later
      exact ⟨(y, wires) :: pairs, rfl, adds.append more, .cons related rest⟩

end Notes

end SchematicHdl
