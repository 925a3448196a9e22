import SchematicHdl.DesignFile.Build
import SchematicHdl.Proofs.Schematic.Entities

/-! The library of a design file. It is built step by step with care: the entities of a checked file
have different names, and a component can only name one of them.
-/

namespace SchematicHdl

open Outcome

namespace Library

/-- A part of a building program: it adds no entities and takes careful steps only. -/
structure Fills [Arithmetic] (library library' : Library) : Prop where
  entities_eq : library'.entities = library.entities
  careful : library.BuiltWithCare → library'.BuiltWithCare

variable {library library' library'' : Library}

theorem Fills.refl [Arithmetic] (library : Library) : library.Fills library := ⟨rfl, id⟩

theorem Fills.trans [Arithmetic] (first : library.Fills library')
    (second : library'.Fills library'')
    : library.Fills library'' :=
  ⟨second.entities_eq.trans first.entities_eq, second.careful ∘ first.careful⟩

theorem fills_of_step [Arithmetic] (step : BuildStep)
    (performed : step.perform.run library = .ok ((), library'))
    (careful : step.Careful library)
    (filling : ∀ name dialect ports body, step ≠ .entity name dialect ports body)
    : library.Fills library' where
  entities_eq := by
    cases BuildStep.perform_grows performed with
    | entity entity described => exact absurd described (filling _ _ _ _)
    | circuit | wiring | place | component => rfl
  careful := fun built => .step built step careful performed

/-- The same for a step whose result is used. -/
theorem fills_of_result [Arithmetic] {α : Type} {action : BuildM α} {result : α}
    (h : action.run library = .ok (result, library')) (step : BuildStep)
    (same : step.perform = discard action) (careful : step.Careful library)
    (filling : ∀ name dialect ports body, step ≠ .entity name dialect ports body)
    : library.Fills library' :=
  fills_of_step step (same ▸ run_discard_eq_ok.2 ⟨result, h⟩) careful filling

theorem fills_of_mapM [Arithmetic] {α β : Type} {action : α → BuildM β} {xs : List α} {ys : List β}
    (h : (xs.mapM action).run library = .ok (ys, library'))
    (each : ∀ x s y s', (action x).run s = .ok (y, s') → s.Fills s')
    : library.Fills library' :=
  ((mapM_run_eq_ok.1 h).forall₂_settled Fills .refl .trans
    (fun x s y s' _ step => each x s y s' step) (fun _ _ _ => True)
    (fun _ _ _ _ _ _ _ _ => trivial)).1

theorem fills_of_forM [Arithmetic] {α : Type} {action : α → BuildM PUnit} {xs : List α}
    (h : (xs.forM action).run library = .ok (⟨⟩, library'))
    (each
      : ∀ x ∈ xs,
          ∀ s s',
            (action x).run s = .ok (⟨⟩, s') → s.entities = library.entities → s.Fills s')
    : library.Fills library' :=
  (forM_run_eq_ok.1 h).keeps (P := library.Fills)
    (fun x member s s' step sofar => sofar.trans (each x member s s' step sofar.entities_eq))
    (.refl library)

end Library

open Library (fills_of_step fills_of_result fills_of_mapM fills_of_forM)

variable {library library' : Library} {names : NameTable}

/-- The entities that can be named are those of the library. -/
def NameTable.Known (names : NameTable) (entities : List ExternalEntity) : Prop :=
  ∀ pair ∈ names.entities, pair.2 ∈ entities

theorem ComponentEntry.place_fills [Arithmetic] (known : names.Known library.entities)
    {circuit position : Nat}
    {entry : ComponentEntry}
    (h : (entry.place names circuit).run library = .ok (position, library'))
    : library.Fills library' := by
  unfold place at h
  split at h
  · exact fills_of_result h (.pin ..) rfl trivial nofun
  · exact fills_of_result h (.clock ..) rfl trivial nofun
  · split at h
    · exact fills_of_result h (.subcircuit ..) rfl trivial nofun
    · exact fills_of_result h (.unknown ..) rfl trivial nofun
  · split at h
    · next found =>
        exact fills_of_result h (.external ..) rfl (known _ (mem_of_lookup_eq_some found)) nofun
    · exact fills_of_result h (.unknown ..) rfl trivial nofun
  · exact fills_of_result h (.primitive ..) rfl trivial nofun
  · exact fills_of_result h (.unknown ..) rfl trivial nofun

theorem ComponentEntry.connect_fills [Arithmetic] {circuit component endIndex : Nat}
    {connection : Option Connection}
    (h
      : (ComponentEntry.connect circuit component endIndex connection).run library
        = .ok ((), library'))
    : library.Fills library' := by
  unfold ComponentEntry.connect at h
  split at h
  · obtain ⟨-, rfl⟩ := Prod.mk.inj (run_pure_eq_ok.1 h)
    exact .refl _
  · exact fills_of_step (.connect circuit component endIndex _) h trivial nofun
  · exact fills_of_step (.connectBits circuit component endIndex _) h trivial nofun

theorem ComponentEntry.build_fills [Arithmetic] (known : names.Known library.entities)
    {circuit : Nat}
    {entry : ComponentEntry} (h : (entry.build names circuit).run library = .ok ((), library'))
    : library.Fills library' := by
  simp only [ComponentEntry.build, run_bind_eq_ok] at h
  obtain ⟨component, placed, there, h⟩ := h
  have connected {middle : Library}
      (h
        : (entry.connections.zipIdx.forM (fun pair =>
            ComponentEntry.connect circuit component pair.2 pair.1)).run middle
          = .ok ((), library'))
      : middle.Fills library' :=
    fills_of_forM h fun _ _ _ _ step _ => connect_fills step
  refine (place_fills known there).trans ?_
  split at h
  · split at h
    · obtain ⟨_, middle, labelled, h⟩ := run_bind_eq_ok.1 h
      exact
        (fills_of_step (.label circuit component _) labelled trivial (by simp)).trans (connected h)
    · exact connected h
  · exact connected h

theorem CircuitEntry.build_fills [Arithmetic] (known : names.Known library.entities) {circuit : Nat}
    {entry : CircuitEntry} (h : (entry.build names circuit).run library = .ok ((), library'))
    : library.Fills library' := by
  simp only [CircuitEntry.build, run_bind_eq_ok] at h
  obtain
    ⟨_, wired, wires, _, joined, joins, _, spliced, splices, _, filled, components, bodies⟩ := h
  have wires : library.Fills wired :=
    fills_of_forM wires fun _ _ _ _ step _ => fills_of_step (.wire circuit _) step trivial nofun
  have joins : wired.Fills joined :=
    fills_of_forM joins fun (_, _) _ _ _ step _ =>
      fills_of_step (.join circuit _ _) step trivial nofun
  have splices : joined.Fills spliced :=
    fills_of_forM splices fun (_, _) _ _ _ step _ =>
      fills_of_step (.splice circuit _ _ _ _) step trivial nofun
  have wiring := (wires.trans joins).trans splices
  have components : spliced.Fills filled :=
    fills_of_forM components fun _ _ _ _ step same =>
      ComponentEntry.build_fills (by rwa [same, wiring.entities_eq]) step
  have bodies : filled.Fills library' :=
    fills_of_forM bodies fun (_, _) _ _ _ step _ =>
      fills_of_step (.customBody circuit _ _) step trivial nofun
  exact (wiring.trans components).trans bodies

namespace DesignFile

/-- The entities of a checked file have different names, by induction on the entities. -/
theorem checkEntities_names {entities : List EntityEntry} {earlier : List String}
    (h : checkEntities earlier entities = .ok ())
    : (entities.map EntityEntry.name).Nodup
      ∧ ∀ entry ∈ entities, entry.name ∉ earlier := by
  induction entities generalizing earlier with
  | nil => exact ⟨List.nodup_nil, nofun⟩
  | cons head rest ih =>
      rw [checkEntities] at h
      split at h
      · obtain ⟨_, thrown, -⟩ := bind_eq_ok.1 h
        exact absurd thrown throw_ne_ok
      · next unseen =>
          obtain ⟨_, -, checked⟩ := bind_eq_ok.1 h
          obtain ⟨distinct, unlisted⟩ := ih checked
          refine ⟨?_, List.forall_mem_cons.mpr ⟨by simpa using unseen, fun entry member => ?_⟩⟩
          · refine List.nodup_cons.mpr ⟨fun listed => ?_, distinct⟩
            obtain ⟨entry, member, same⟩ := List.mem_map.mp listed
            exact unlisted entry member (by simp [same])
          · exact fun listed => unlisted entry member (List.mem_cons_of_mem _ listed)

/-- Entities with new names are added with care, by induction on the entities. -/
theorem addEntities [Arithmetic] {entries : List EntityEntry}
    {table : List (String × ExternalEntity)}
    (h
      : (entries.mapM (fun entry => do
          return (entry.name, ← Build.entity entry.name entry.dialect entry.ports entry.body)
          : EntityEntry → BuildM (String × ExternalEntity))).run library
        = .ok (table, library'))
    (distinct : (entries.map EntityEntry.name).Nodup)
    (fresh : ∀ entry ∈ entries, entry.name ∉ library.entities.map ExternalEntity.name)
    (built : library.BuiltWithCare)
    : library'.BuiltWithCare
      ∧ library.entities ⊆ library'.entities
      ∧ ∀ pair ∈ table, pair.2 ∈ library'.entities := by
  have threaded := mapM_run_eq_ok.1 h
  clear h
  induction threaded with
  | nil => exact ⟨built, List.Subset.refl _, nofun⟩
  | @cons entry rest _ _ _ _ _ head _ ih =>
      simp only [run_bind_eq_ok, run_pure_eq_ok, Prod.mk.injEq] at head
      obtain ⟨entity, middle, added, rfl, rfl⟩ := head
      obtain ⟨unlisted, distinct⟩ := List.nodup_cons.mp distinct
      obtain ⟨entities_eq, entity_eq⟩ := Build.entity_grows added
      have built : middle.BuiltWithCare :=
        .step built (.entity entry.name entry.dialect entry.ports entry.body)
          (fresh entry List.mem_cons_self) (run_discard_eq_ok.2 ⟨entity, added⟩)
      have later (other : EntityEntry) (member : other ∈ rest)
          : other.name ∉ middle.entities.map ExternalEntity.name := by
        intro listed
        have differs := fresh other (List.mem_cons_of_mem _ member)
        have same : other.name = entry.name := by
          simpa [entities_eq, entity_eq, differs] using listed
        exact unlisted (same ▸ List.mem_map_of_mem member)
      obtain ⟨built, within, listed⟩ := ih distinct later built
      rw [entities_eq] at within
      obtain ⟨earlier, here⟩ := List.append_subset.mp within
      exact ⟨built, earlier, List.forall_mem_cons.mpr ⟨here List.mem_cons_self, listed⟩⟩

/-- Whatever comes out of a design file is built with care. -/
theorem elaborate_builtWithCare [Arithmetic] {file : DesignFile} {top : CircuitRef}
    (h : file.elaborate = .ok (library, top))
    : library.BuiltWithCare := by
  unfold elaborate at h
  split at h
  · cases h
  · next checked =>
      split at h
      · cases h
      · next top' library' built =>
          obtain ⟨rfl, rfl⟩ := Prod.mk.inj (Except.ok.inj h)
          have distinct : (file.entities.map EntityEntry.name).Nodup := by
            simp only [check, bind_eq_ok] at checked
            obtain ⟨_, -, _, entities, -⟩ := checked
            exact (checkEntities_names entities).1
          simp only [build, run_bind_eq_ok, run_get_eq_ok, run_pure_eq_ok, Prod.mk.injEq] at built
          obtain ⟨entities, known, first, circuits, placed, second, _, filled, third, _, _,
            ⟨rfl, rfl⟩, -, rfl⟩ := built
          obtain ⟨careful, -, listed⟩ :=
            addEntities first distinct (by simp [Library.empty]) (.empty 0)
          have adds : known.Fills placed :=
            fills_of_mapM second fun entry _ _ _ step => by
              obtain ⟨_, _, added, -, rfl⟩ := run_bind_eq_ok.1 step
              exact fills_of_result added (.circuit entry.name) rfl trivial (by simp)
          have fills : placed.Fills filled :=
            fills_of_forM third fun _ _ _ _ step same => by
              refine CircuitEntry.build_fills (fun pair member => ?_) step
              rw [same, adds.entities_eq]
              exact listed pair member
          exact fills.careful (adds.careful careful)

end DesignFile

end SchematicHdl
