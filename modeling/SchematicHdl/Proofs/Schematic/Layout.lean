import SchematicHdl.Proofs.Machine
import SchematicHdl.Proofs.Outcome
import SchematicHdl.Schematic.Circuit

/-! Laying out the ends of components. Whatever a primitive does, its data ends are counted, which
may end a run of a checking build; the ends that are laid out are those of the component.
-/

namespace SchematicHdl

open Outcome

/-- The data ends of a primitive are counted in a long word. -/
def Component.CountsEnds (component : Component) : Prop :=
  ∀ type, component.kind = .primitive type → component.attributes.selectBits < Word.longBits

theorem Component.countsEnds_of_other {component : Component}
    (other : ∀ type, component.kind ≠ .primitive type)
    : component.CountsEnds :=
  fun type kind => absurd kind (other type)

variable [Arithmetic]

theorem Primitive.layOut_eq_ok {type : Primitive} {attributes : Attributes} {shapes : List EndShape}
    : type.layOut attributes = .ok shapes
      ↔ (Arithmetic.checksOverflow = true → attributes.selectBits < Word.longBits)
        ∧ shapes = type.ends attributes := by
  simp only [layOut, bind_eq_ok, pure_eq_ok, Word.power_eq_ok]
  constructor
  · rintro ⟨_, ⟨fits, rfl⟩, rfl⟩
    exact ⟨fits, rfl⟩
  · rintro ⟨fits, rfl⟩
    exact ⟨_, ⟨fits, rfl⟩, rfl⟩

theorem Library.layOut_eq_ok {library : Library} {component : Component} {shapes : List EndShape}
    : library.layOut component = .ok shapes
      ↔ (Arithmetic.checksOverflow = true → component.CountsEnds)
        ∧ shapes = library.ends component := by
  unfold layOut ends Component.CountsEnds
  cases kind : component.kind with
  | primitive type => simp [Primitive.layOut_eq_ok]
  | pin | clock | subcircuit | external | unknown =>
      simp only [Except.ok.injEq, reduceCtorEq, false_implies, implies_true, true_and]
      exact eq_comm

/-- Ends are laid out but in a checking build, which does not count what a long word cannot hold. -/
theorem Library.not_countsEnds_of_error {library : Library} {component : Component}
    {cause : Overflow} (failed : library.layOut component = .error cause)
    : Arithmetic.checksOverflow = true ∧ ¬ component.CountsEnds := by
  refine Classical.by_contradiction fun counted => ?_
  have done : library.layOut component = .ok (library.ends component) :=
    layOut_eq_ok.2 ⟨by simpa using counted, rfl⟩
  rw [done] at failed
  cases failed

end SchematicHdl
