import SchematicHdl.Proofs.Net.Determined
import SchematicHdl.Proofs.Net.Wiring

/-! What the wiring of a table copies, bit by bit. A bit of a root net that is not its own canonical
point is copied into once, from its canonical point; nothing else is copied into, so no copy reads
what another copy writes.
-/

namespace SchematicHdl.Net

namespace Table

/-- The copies that the wiring stands for. -/
def wiredCopies (table : Table) : List (Point × Point) := table.wiring.flatMap Run.copies

theorem wiredCopies_eq (table : Table) : table.wiredCopies = table.aliases :=
  flatMap_copies_toRuns table.aliases

/-- A bit of a net resolves to the point that the wires of the net resolve to at that bit. -/
def Resolves (table : Table) (point source : Point) : Prop :=
  ∃ wire,
    table.netOfWire? wire = some point.net ∧ table.canonical? ⟨wire, point.bit⟩ = some source

/-- The wiring copies into every bit of a root net that is not its own canonical point, once, from
its canonical point, and copies nothing else; it reads root nets only, and nothing that it writes;
and no two neighbours among its runs have the copies of one run.
-/
structure WiredExactly (table : Table) : Prop where
  once : (table.wiredCopies.map Prod.fst).Nodup
  copies_iff
    : ∀ target source,
        (target, source) ∈ table.wiredCopies
        ↔ table.Rooted target ∧ table.Resolves target source ∧ source ≠ target
  resolved : ∀ target, table.Rooted target → ∃! source, table.Resolves target source
  fromRoot : ∀ copy ∈ table.wiredCopies, table.Rooted copy.2
  apart : ∀ copy ∈ table.wiredCopies, ∀ other ∈ table.wiredCopies, copy.2 ≠ other.1
  root_iff
    : ∀ position net,
        table.nets[position]? = some net
        → (net.isRoot = true
          ↔ ∃ bit point, table.canonical? bit = some point ∧ point.net = position)
  positive : ∀ run ∈ table.wiring, 0 < run.width
  separate
    : ∀ before run next after,
        table.wiring = before ++ run :: next :: after
        → ∀ merged : Run, ¬ merged.copies.Perm (run.copies ++ next.copies)

end Table

-----------------------------------------------------------------------------------------
-- Bits of nets and their canonical points
-----------------------------------------------------------------------------------------

namespace Draft

variable {draft : Draft} {widths : List Nat} {joins : List (Nat × Nat)}
  {splices : List (WireBit × WireBit)}

theorem Collected.resolves_canonicalOf (collected : draft.Collected widths joins splices)
    {point : Point} {net : Net} (found : draft.freeze.nets[point.net]? = some net)
    (lower : point.bit < net.width)
    : draft.freeze.Resolves point (draft.freeze.canonicalOf point) :=
  ⟨net.firstWire, collected.numbersNets.netOfFirstWire _ _ found,
    collected.canonical?_firstWire found lower⟩

/-- All wires of a net resolve alike. -/
theorem Collected.resolves_unique (collected : draft.Collected widths joins splices)
    {point a b : Point} (first : draft.freeze.Resolves point a)
    (second : draft.freeze.Resolves point b)
    : a = b := by
  obtain ⟨wireA, atA, resolvedA⟩ := first
  obtain ⟨wireB, atB, resolvedB⟩ := second
  have samePlace : draft.place ⟨wireA, point.bit⟩ = draft.place ⟨wireB, point.bit⟩ :=
    (place_eq_of_places ⟨atA, rfl⟩).trans (place_eq_of_places ⟨atB, rfl⟩).symm
  have hasA := collected.hasBit_of_canonical? resolvedA
  have hasB := collected.hasBit_of_canonical? resolvedB
  have same := (collected.canonical?_eq_iff hasA hasB).2
    (collected.connected_of_place_eq hasA hasB samePlace)
  rw [resolvedA, resolvedB] at same
  exact Option.some.inj same

/-- A canonical point is its own canonical point. -/
theorem Collected.resolves_self (collected : draft.Collected widths joins splices)
    {point source : Point} (resolves : draft.freeze.Resolves point source)
    : draft.freeze.Resolves source source := by
  obtain ⟨wire, -, resolved⟩ := resolves
  have has := collected.hasBit_of_canonical? resolved
  rw [collected.canonical?_freeze has] at resolved
  obtain ⟨bit, hasBit, sameClass, rfl⟩ := canonicalOfClass_place resolved
  refine ⟨bit.wire, (places_place hasBit).1, ?_⟩
  have known : HasBit widths bit := collected.widths_eq ▸ hasBit
  have atBit := collected.canonical?_freeze known
  rw [sameClass, resolved] at atBit
  exact atBit

theorem Collected.resolves_rooted (collected : draft.Collected widths joins splices)
    {point source : Point} (resolves : draft.freeze.Resolves point source)
    : draft.freeze.Rooted source := by
  obtain ⟨wire, -, resolved⟩ := resolves
  exact collected.canonical?_rooted resolved

/-- A net is a root just when some wire bit resolves to a point of it. -/
theorem Collected.isRoot_iff (collected : draft.Collected widths joins splices)
    {position : Nat} {net : Net} (found : draft.freeze.nets[position]? = some net)
    : net.isRoot = true
      ↔ ∃ bit point, draft.freeze.canonical? bit = some point ∧ point.net = position := by
  constructor
  · intro root
    rw [freeze_isRoot found, List.any_eq_true] at root
    obtain ⟨points, listed, here⟩ := root
    obtain ⟨point, member, inNet⟩ := List.any_eq_true.mp here
    obtain ⟨bit, has, canonical⟩ := exists_of_mem_canonicalLists listed member
    have known : HasBit widths bit := collected.widths_eq ▸ has
    exact ⟨bit, point, (collected.canonical?_freeze known).trans canonical,
      of_decide_eq_true inNet⟩
  · rintro ⟨bit, point, resolved, rfl⟩
    obtain ⟨root, atPoint, isRoot, -⟩ := collected.canonical?_rooted resolved
    rw [found] at atPoint
    exact Option.some.inj atPoint ▸ isRoot

-----------------------------------------------------------------------------------------
-- Exact wiring
-----------------------------------------------------------------------------------------

/-- The copies are those of the bits of root nets that resolve elsewhere. -/
theorem Collected.mem_wiredCopies (collected : draft.Collected widths joins splices)
    {target source : Point}
    : (target, source) ∈ draft.freeze.wiredCopies
      ↔ draft.freeze.Rooted target ∧ draft.freeze.Resolves target source ∧ source ≠ target := by
  rw [Table.wiredCopies_eq, Table.mem_aliases]
  refine and_congr_right fun root => and_congr_left fun _ => ?_
  obtain ⟨net, found, -, lower⟩ := root
  have canonical := collected.resolves_canonicalOf found lower
  constructor
  · rintro rfl
    exact canonical
  · exact fun resolves => collected.resolves_unique resolves canonical

/-- No two neighbours of the wiring are one run: their targets ascend, so their copies would follow
each other in it.
-/
theorem not_perm_of_neighbours {table : Table} {before after : List Run} {run next : Run}
    (listed : table.wiring = before ++ run :: next :: after) (merged : Run)
    : ¬ merged.copies.Perm (run.copies ++ next.copies) := by
  intro same
  have maximal := Table.maximal_toRuns table.aliases
  have stops : ¬ run.continuedBy next.target next.source = true :=
    List.isChain_iff_forall_rel_of_append_cons_cons.mp maximal.2 listed
  have ascending := table.aliases_ascending
  rw [← table.wiredCopies_eq, Table.wiredCopies, listed] at ascending
  have neighbours : (run.copies ++ next.copies).Pairwise (fun a b => a.1.Before b.1) :=
    ascending.sublist (by simp)
  have first : run ∈ table.wiring := by simp [listed]
  have second : next ∈ table.wiring := by simp [listed]
  have eq : merged.copies = run.copies ++ next.copies :=
    same.eq_of_pairwise (fun a b _ _ first second => absurd second first.asymm)
      merged.copies_ascending neighbours
  exact stops (Run.continuedBy_of_copies_eq (maximal.1 run first) (maximal.1 next second) eq)

theorem Collected.wiredExactly (collected : draft.Collected widths joins splices)
    : draft.freeze.WiredExactly where
  once := by
    rw [Table.wiredCopies_eq, List.nodup_iff_pairwise_ne, List.pairwise_map]
    exact draft.freeze.aliases_ascending.imp fun before => before.ne
  copies_iff := fun _ _ => collected.mem_wiredCopies
  resolved := by
    rintro target ⟨net, found, -, lower⟩
    exact ⟨_, collected.resolves_canonicalOf found lower,
      fun _ other => collected.resolves_unique other (collected.resolves_canonicalOf found lower)⟩
  fromRoot := by
    rintro ⟨target, source⟩ copied
    exact collected.resolves_rooted (collected.mem_wiredCopies.1 copied).2.1
  apart := by
    rintro ⟨target, source⟩ copied ⟨other, read⟩ alsoCopied rfl
    -- the source is its own canonical point, so it is no target
    obtain ⟨-, resolves, -⟩ := collected.mem_wiredCopies.1 copied
    obtain ⟨-, moved, differs⟩ := collected.mem_wiredCopies.1 alsoCopied
    exact differs (collected.resolves_unique moved (collected.resolves_self resolves))
  root_iff := fun _ _ found => collected.isRoot_iff found
  positive := (Table.maximal_toRuns draft.freeze.aliases).1
  separate := fun _ _ _ _ listed merged => not_perm_of_neighbours listed merged

/-- The wiring of a circuit is exact, whatever calls its nets were formed by. -/
theorem wiring_connect_exact (scope : String) (widths : List Nat) (requests : List Request)
    : (connect scope widths requests).freeze.WiredExactly := by
  obtain ⟨joins, splices, answers⟩ := connect_answers scope widths requests
  exact answers.collected.wiredExactly

end Draft

end SchematicHdl.Net
