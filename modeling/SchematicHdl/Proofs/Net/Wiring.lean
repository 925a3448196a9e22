import SchematicHdl.Proofs.Net.Canonical
import SchematicHdl.Proofs.Net.Runs

/-! The wiring of a table that comes from a draft. Whatever bit of a net is asked for, its canonical
point is a bit of a root net; so every copy of the wiring runs between bits of root nets.
-/

namespace SchematicHdl.Net

namespace Draft

variable {draft : Draft} {widths : List Nat} {joins : List (Nat × Nat)}
  {splices : List (WireBit × WireBit)}

/-- Every net is listed with a wire of its own width. -/
theorem Collected.firstWire_width (collected : draft.Collected widths joins splices)
    {position : Nat} {net : Net} (found : draft.freeze.nets[position]? = some net)
    : widths[net.firstWire]? = some net.width := by
  simp only [freeze, List.getElem?_mapIdx] at found
  cases root : draft.rootWires[position]? with
  | none => simp [root] at found
  | some wire =>
      obtain rfl := by simpa [root] using found
      have listed := List.mem_of_getElem? root
      simp only [rootWires, List.mem_filter, List.mem_range] at listed
      rw [← collected.widths_eq]
      simp [List.getElem?_eq_getElem listed.1]

/-- The first wire of a net resolves like the net. -/
theorem Collected.canonical?_firstWire (collected : draft.Collected widths joins splices)
    {point : Point} {net : Net} (found : draft.freeze.nets[point.net]? = some net)
    (lower : point.bit < net.width)
    : draft.freeze.canonical? ⟨net.firstWire, point.bit⟩
      = some (draft.freeze.canonicalOf point) := by
  have has : HasBit widths ⟨net.firstWire, point.bit⟩ :=
    ⟨net.width, collected.firstWire_width found, lower⟩
  have known : HasBit draft.widths ⟨net.firstWire, point.bit⟩ := collected.widths_eq ▸ has
  obtain ⟨canonical, chosen⟩ := Option.isSome_iff_exists.mp (canonicalOfClass?_isSome known)
  rw [collected.canonical?_freeze has, chosen]
  simp only [Table.canonicalOf, found, pointAt_freeze known, chosen, Option.getD_some]

/-- The canonical point of a net bit is a bit of a root net. -/
theorem Collected.canonicalOf_rooted (collected : draft.Collected widths joins splices)
    {point : Point} {net : Net} (found : draft.freeze.nets[point.net]? = some net)
    (lower : point.bit < net.width)
    : draft.freeze.Rooted (draft.freeze.canonicalOf point) :=
  collected.canonical?_rooted (collected.canonical?_firstWire found lower)

end Draft

/-- Consecutive bits of a net, all of them bits of root nets. -/
def Table.RootedRange (table : Table) (first : Point) (width : Nat) : Prop :=
  0 < width ∧ ∀ i < width, table.Rooted ⟨first.net, first.bit + i⟩

namespace Table

-----------------------------------------------------------------------------------------
-- Aliases
-----------------------------------------------------------------------------------------

theorem mem_rootNets {table : Table} {position : Nat}
    : position ∈ table.rootNets
      ↔ ∃ net, table.nets[position]? = some net ∧ net.isRoot = true := by
  simp only [rootNets, List.mem_filter, List.mem_range]
  constructor
  · rintro ⟨inside, root⟩
    rw [List.getElem?_eq_getElem inside] at root
    exact ⟨_, List.getElem?_eq_getElem inside, root⟩
  · rintro ⟨net, found, root⟩
    exact ⟨(List.getElem?_eq_some_iff.mp found).1, by simp [found, root]⟩

/-- The copy that a bit of a net needs, unless it is its own canonical point. -/
def alias? (table : Table) (point : Point) : Option (Point × Point) :=
  if table.canonicalOf point = point then none else some (point, table.canonicalOf point)

theorem alias?_eq_some {table : Table} {point : Point} {copy : Point × Point}
    : table.alias? point = some copy
      ↔ copy.1 = point ∧ copy.2 = table.canonicalOf point ∧ copy.2 ≠ point := by
  obtain ⟨target, source⟩ := copy
  by_cases own : table.canonicalOf point = point
  · simp [alias?, own]
  · simp only [alias?, own, if_false, Option.some.injEq, Prod.mk.injEq]
    constructor
    · rintro ⟨rfl, rfl⟩
      exact ⟨rfl, rfl, own⟩
    · rintro ⟨rfl, rfl, -⟩
      exact ⟨rfl, rfl⟩

theorem aliases_eq (table : Table)
    : table.aliases
      = table.rootNets.flatMap (fun net =>
          (List.range (table.widthAt net)).filterMap (fun bit => table.alias? ⟨net, bit⟩)) :=
  rfl

/-- The aliases are the bits of root nets that are not canonical. -/
theorem mem_aliases {table : Table} {target source : Point}
    : (target, source) ∈ table.aliases
      ↔ table.Rooted target ∧ source = table.canonicalOf target ∧ source ≠ target := by
  simp only [aliases_eq, List.mem_flatMap, List.mem_filterMap, List.mem_range, mem_rootNets,
    alias?_eq_some]
  constructor
  · rintro ⟨position, ⟨net, found, root⟩, bit, lower, rfl, canonical, moved⟩
    simp only [widthAt, found, Option.map_some, Option.getD_some] at lower
    exact ⟨⟨net, found, root, lower⟩, canonical, moved⟩
  · rintro ⟨⟨net, found, root, lower⟩, canonical, moved⟩
    refine ⟨target.net, ⟨net, found, root⟩, target.bit, ?_, rfl, canonical, moved⟩
    simpa only [widthAt, found, Option.map_some, Option.getD_some] using lower

/-- The aliases are listed net by net and bit by bit. -/
theorem aliases_ascending (table : Table)
    : table.aliases.Pairwise (fun a b => a.1.Before b.1) := by
  rw [aliases_eq, List.pairwise_flatMap]
  constructor
  · intro net _
    rw [List.pairwise_filterMap]
    refine List.pairwise_lt_range.imp fun lower a madeA b madeB => ?_
    rw [(alias?_eq_some.1 madeA).1, (alias?_eq_some.1 madeB).1]
    exact Or.inr ⟨rfl, lower⟩
  · refine (List.pairwise_lt_range.filter _).imp fun lower a memberA b memberB => ?_
    obtain ⟨bitA, -, madeA⟩ := List.mem_filterMap.mp memberA
    obtain ⟨bitB, -, madeB⟩ := List.mem_filterMap.mp memberB
    rw [(alias?_eq_some.1 madeA).1, (alias?_eq_some.1 madeB).1]
    exact Or.inl lower

-----------------------------------------------------------------------------------------
-- Wiring
-----------------------------------------------------------------------------------------

variable {draft : Draft} {widths : List Nat} {joins : List (Nat × Nat)}
  {splices : List (WireBit × WireBit)}

/-- Every run of the wiring copies from bits of a root net into bits of a root net. -/
theorem rooted_of_mem_wiring (collected : draft.Collected widths joins splices) {run : Run}
    (member : run ∈ draft.freeze.wiring)
    : draft.freeze.RootedRange run.target run.width
      ∧ draft.freeze.RootedRange run.source run.width := by
  have rooted (i : Nat) (lower : i < run.width)
      : draft.freeze.Rooted (run.targetAt i) ∧ draft.freeze.Rooted (run.sourceAt i) := by
    obtain ⟨root, canonical, -⟩ := mem_aliases.1 (mem_of_mem_toRuns member lower)
    refine ⟨root, ?_⟩
    obtain ⟨net, found, -, inside⟩ := root
    exact canonical ▸ collected.canonicalOf_rooted found inside
  have positive := (maximal_toRuns draft.freeze.aliases).1 run member
  exact ⟨⟨positive, fun i lower => (rooted i lower).1⟩,
    ⟨positive, fun i lower => (rooted i lower).2⟩⟩

end Table

end SchematicHdl.Net
