import SchematicHdl.Proofs.Netlist.Inventory

/-! Registration of clock sources. The registry only grows and has each shape once, so the number of
a tree tells its shape for good; a circuit uses every tree that is registered while it is analyzed.
-/

namespace SchematicHdl

open Outcome

-----------------------------------------------------------------------------------------
-- The registry
-----------------------------------------------------------------------------------------

namespace ClockRegistry

/-- The shapes of the trees, each at the number of its tree. -/
def shapes (registry : ClockRegistry) : List ClockShape := registry.trees.map ClockTree.shape

/-- What the registration of a source of some shape does. -/
structure Registers (before after : ClockRegistry) (shape : ClockShape) (tree : Nat) : Prop where
  kept : before.shapes <+: after.shapes
  found : after.shapes[tree]? = some shape
  distinct : before.shapes.Nodup → after.shapes.Nodup
  new : ∀ other < after.shapes.length, other < before.shapes.length ∨ other = tree

/-- A source gets the tree that has its shape already, or a new one behind all others. -/
theorem register_registers {registry after : ClockRegistry} {circuit source : String}
    {attributes : Attributes} {tree : Nat}
    (h : registry.register circuit source attributes = (after, tree))
    : Registers registry after (.ofAttributes attributes) tree := by
  simp only [register] at h
  split at h
  · next known =>
      obtain ⟨rfl, rfl⟩ := Prod.mk.inj h
      obtain ⟨inside, same, -⟩ := List.findIdx?_eq_some_iff_getElem.mp known
      refine ⟨List.prefix_refl _, ?_, id, fun _ => .inl⟩
      rw [shapes, List.getElem?_map, List.getElem?_eq_getElem inside, Option.map_some]
      exact congrArg some (of_decide_eq_true same)
  · next unknown =>
      obtain ⟨rfl, rfl⟩ := Prod.mk.inj h
      have fresh : ClockShape.ofAttributes attributes ∉ registry.shapes := by
        intro listed
        obtain ⟨tree, member, same⟩ := List.mem_map.mp listed
        simpa [same] using List.findIdx?_eq_none_iff.mp unknown tree member
      refine ⟨?_, ?_, fun distinct => ?_, fun other inside => ?_⟩
      · simp [shapes]
      · simp [shapes]
      · rw [shapes, List.map_append]
        refine List.nodup_append.mpr ⟨distinct, List.pairwise_singleton _ _, ?_⟩
        intro old listed new added same
        rw [same, List.mem_singleton.mp added] at listed
        exact fresh listed
      · simp only [shapes, List.map_append, List.length_append, List.length_map, List.map_cons,
          List.map_nil, List.length_cons, List.length_nil] at inside ⊢
        omega

/-- Trees of a registry that has each shape once are told by their shapes. -/
theorem eq_iff_of_shapes {registry : ClockRegistry} (distinct : registry.shapes.Nodup)
    {a b : Nat} {shape other : ClockShape} (atA : registry.shapes[a]? = some shape)
    (atB : registry.shapes[b]? = some other)
    : a = b ↔ shape = other := by
  constructor
  · rintro rfl
    exact Option.some.inj (atA.symm.trans atB)
  · rintro rfl
    have inside := (List.getElem?_eq_some_iff.mp atA).1
    exact (List.getElem?_inj inside distinct).mp (atA.trans atB.symm)

end ClockRegistry

-----------------------------------------------------------------------------------------
-- The sources of one circuit
-----------------------------------------------------------------------------------------

namespace Netlist

/-- A clock source has the tree of its shape. -/
def OnItsTree (registry : ClockRegistry) (part : Part) : Prop :=
  part.component.kind = .clock
  → ∃ tree,
      part.clockTree = some tree
      ∧ registry.shapes[tree]? = some (.ofAttributes part.component.attributes)

/-- An inventory uses registered trees only, and every tree that is registered since it was begun
with some number of them.
-/
structure Accounts (begun : Nat) (inventory : Inventory) : Prop where
  distinct : inventory.registry.shapes.Nodup
  begun_le : begun ≤ inventory.registry.shapes.length
  inside : ∀ tree ∈ inventory.clockTrees, tree < inventory.registry.shapes.length
  used : ∀ tree < inventory.registry.shapes.length, tree < begun ∨ tree ∈ inventory.clockTrees

variable {circuit : Circuit} {children : List Netlist} {part after : Part} {s s' : Inventory}

/-- Taking in a part keeps the account, by cases on what the part is. -/
theorem TakesIn.accounts [Arithmetic] {begun : Nat}
    (takesIn : TakesIn circuit children part s after s')
    (below : ∀ child ∈ children, ∀ tree ∈ child.clockTrees, tree < begun)
    (accounts : Accounts begun s)
    : Accounts begun s' := by
  cases takesIn with
  | other => exact accounts
  | subcircuit _ analyzed _ =>
      have listed := List.mem_of_find?_eq_some analyzed
      refine ⟨accounts.distinct, accounts.begun_le, fun tree member => ?_, fun tree inside => ?_⟩
      · rcases mem_foldl_insertAscending.mp member with taken | earlier
        · exact Nat.lt_of_lt_of_le (below _ listed tree taken) accounts.begun_le
        · exact accounts.inside tree earlier
      · refine (accounts.used tree inside).imp_right fun earlier => ?_
        exact mem_foldl_insertAscending.mpr (.inr earlier)
  | clock _ registered =>
      have registers := ClockRegistry.register_registers registered
      have longer := registers.kept.length_le
      refine
        ⟨registers.distinct accounts.distinct, Nat.le_trans accounts.begun_le longer,
          fun tree member => ?_, fun tree inside => ?_⟩
      · rcases mem_insertAscending.mp member with rfl | earlier
        · exact (List.getElem?_eq_some_iff.mp registers.found).1
        · exact Nat.lt_of_lt_of_le (accounts.inside tree earlier) longer
      · rcases registers.new tree inside with earlier | rfl
        · exact (accounts.used tree earlier).imp_right fun used =>
            mem_insertAscending.mpr (.inr used)
        · exact .inr (mem_insertAscending.mpr (.inl rfl))

theorem TakesIn.kept [Arithmetic] (takesIn : TakesIn circuit children part s after s')
    : s.registry.shapes <+: s'.registry.shapes := by
  cases takesIn with
  | other | subcircuit => exact List.prefix_refl _
  | clock _ registered => exact (ClockRegistry.register_registers registered).kept

theorem OnItsTree.later {registry later : ClockRegistry} (onTree : OnItsTree registry part)
    (kept : registry.shapes <+: later.shapes)
    : OnItsTree later part := by
  intro kind
  obtain ⟨tree, clocked, found⟩ := onTree kind
  refine ⟨tree, clocked, ?_⟩
  obtain ⟨rest, same⟩ := kept
  rw [← same, List.getElem?_append_left (List.getElem?_eq_some_iff.mp found).1, found]

theorem TakesIn.onItsTree [Arithmetic] (takesIn : TakesIn circuit children part s after s')
    : OnItsTree s'.registry after := by
  intro kind
  cases takesIn with
  | other _ notClock => simp [Part.category, Component.category, kind] at notClock
  | subcircuit other => simp [other] at kind
  | clock _ registered =>
      exact ⟨_, rfl, (ClockRegistry.register_registers registered).found⟩

namespace Stages

variable {library : Library} {registry : ClockRegistry} {analyzed : Analyzed}

/-- The registry keeps its trees, and the clock sources are on theirs. -/
theorem onItsTree [Arithmetic] (stages : Stages library circuit children registry analyzed)
    : registry.shapes <+: analyzed.registry.shapes
      ∧ ∀ part ∈ analyzed.netlist.parts, OnItsTree analyzed.registry part := by
  have settled :=
    stages.takes.forall₂_settled
      (fun s s' => s.registry.shapes <+: s'.registry.shapes)
      (fun _ => List.prefix_refl _) (fun first second => first.trans second)
      (fun _ _ _ _ _ takes => takes.kept)
      (fun _ after s => OnItsTree s.registry after)
      (fun _ _ _ _ _ _ takes kept => takes.onItsTree.later kept)
  rw [stages.registry_eq, stages.netlist_eq]
  refine ⟨settled.1, fun part held => ?_⟩
  obtain ⟨_, -, onTree⟩ := forall₂_mem_right settled.2 held
  exact onTree

/-- A circuit uses registered trees only, and all that are new. -/
theorem accounts [Arithmetic] (stages : Stages library circuit children registry analyzed)
    (distinct : registry.shapes.Nodup)
    (below : ∀ child ∈ children, ∀ tree ∈ child.clockTrees, tree < registry.shapes.length)
    : analyzed.registry.shapes.Nodup
      ∧ (∀ tree ∈ analyzed.netlist.clockTrees, tree < analyzed.registry.shapes.length)
      ∧ ∀ tree < analyzed.registry.shapes.length,
          tree < registry.shapes.length ∨ tree ∈ analyzed.netlist.clockTrees := by
  have kept : Accounts registry.shapes.length stages.inventory :=
    stages.takes.keeps (fun _ _ _ _ takes => takes.accounts below)
      ⟨distinct, Nat.le_refl _, nofun, fun _ => .inl⟩
  rw [stages.registry_eq, stages.netlist_eq]
  exact ⟨kept.distinct, kept.inside, kept.used⟩

end Stages

end Netlist

end SchematicHdl
