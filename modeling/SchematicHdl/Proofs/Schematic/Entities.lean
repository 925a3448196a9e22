import Mathlib.Data.List.Nodup
import SchematicHdl.Proofs.Schematic.Building

/-! Libraries that own their entities. If entities are added under new names and only entities of
the library are placed, then an entity is known by its name wherever it is placed.
-/

namespace SchematicHdl

open Outcome

/-- An entity is added under a new name, and only entities of the library are placed. -/
def BuildStep.Careful (library : Library) : BuildStep → Prop
  | .entity name .. => name ∉ library.entities.map ExternalEntity.name
  | .external _ placed => placed ∈ library.entities
  | _ => True

/-- If the component stands for an entity, then for one of the library. -/
def Component.Owned (library : Library) (component : Component) : Prop :=
  ∀ entity, component.kind = .external entity → entity ∈ library.entities

namespace Library

/-- The library is built from an empty one by careful steps. -/
def BuiltWithCare [Arithmetic]
    : Library → Prop := BuiltBy (fun library step => step.Careful library)

/-- The placed entities are those of the library, and these have names of their own. -/
structure OwnsEntities (library : Library) : Prop where
  names : (library.entities.map ExternalEntity.name).Nodup
  placed
    : ∀ circuit ∈ library.circuits, ∀ component ∈ circuit.components, component.Owned library

/-- A change of one circuit keeps the entities owned if all that it places is owned. -/
theorem OwnsEntities.modify {library : Library} (owns : library.OwnsEntities) (position : Nat)
    (change : Circuit → Circuit)
    (kept
      : ∀ circuit ∈ library.circuits,
          ∀ component ∈ (change circuit).components, component.Owned library)
    : OwnsEntities { library with circuits := library.circuits.modify position change } where
  names := owns.names
  placed := by
    intro circuit member
    rcases mem_of_mem_modify member with same | ⟨before, listed, rfl⟩
    · exact owns.placed circuit same
    · exact kept before listed

/-- A careful step keeps the entities owned, by cases on what the step does. -/
theorem OwnsEntities.grows {library library' : Library} {step : BuildStep}
    (owns : library.OwnsEntities) (careful : step.Careful library)
    (grows : library.Grows step library')
    : library'.OwnsEntities := by
  cases grows with
  | circuit name =>
      refine ⟨owns.names, fun circuit member component placed => ?_⟩
      rcases List.mem_append.mp member with earlier | new
      · exact owns.placed circuit earlier component placed
      · obtain rfl := List.mem_singleton.mp new
        cases placed
  | entity entity described =>
      subst described
      refine ⟨?_, fun circuit member component placed other kind => ?_⟩
      · rw [List.map_append]
        exact
          owns.names.append (List.nodup_singleton _) (by simpa [BuildStep.Careful] using careful)
      · exact List.mem_append_left _ (owns.placed circuit member component placed other kind)
  | wiring position change _ _ components =>
      refine owns.modify position change fun circuit member => ?_
      rw [components]
      exact owns.placed circuit member
  | place position component _ _ external =>
      refine owns.modify position _ fun circuit member placed listed entity kind => ?_
      rcases List.mem_append.mp listed with earlier | new
      · exact owns.placed circuit member placed earlier entity kind
      · obtain rfl := List.mem_singleton.mp new
        obtain rfl := external entity kind
        exact careful
  | component position index change _ same =>
      refine owns.modify position _ fun circuit member placed listed entity kind => ?_
      rcases mem_of_mem_modify listed with earlier | ⟨before, there, rfl⟩
      · exact owns.placed circuit member placed earlier entity kind
      · rw [same] at kind
        exact owns.placed circuit member before there entity kind

/-- A library that is built with care owns its entities, by induction on the steps. -/
theorem BuiltWithCare.ownsEntities [Arithmetic] {library : Library} (built : library.BuiltWithCare)
    : library.OwnsEntities := by
  induction built with
  | empty tag => exact ⟨List.nodup_nil, by simp [Library.empty]⟩
  | step _ _ careful performed ih => exact ih.grows careful (BuildStep.perform_grows performed)

/-- Entities that a library owns are told by their names. -/
theorem OwnsEntities.eq_of_name {library : Library} (owns : library.OwnsEntities)
    {a b : ExternalEntity} (memberA : a ∈ library.entities) (memberB : b ∈ library.entities)
    (same : a.name = b.name)
    : a = b :=
  List.inj_on_of_nodup_map owns.names memberA memberB same

end Library

end SchematicHdl
