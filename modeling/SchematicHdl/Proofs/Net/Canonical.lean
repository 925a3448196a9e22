import Mathlib.Data.List.Basic
import Mathlib.Data.List.Induction
import SchematicHdl.Proofs.Net.Connectivity

/-! Canonical points of a frozen draft. Every class of wire bits has one canonical point, chosen
among the places of its bits in their nets; the place of a bit determines its class, since the
wires of a net carry the same classes. Two bits therefore resolve to one point just when they are
connected.
-/

namespace SchematicHdl.Net

/-- A point that can be named in emitted text: a bit of a root net. -/
def Table.Rooted (table : Table) (point : Point) : Prop :=
  ∃ net, table.nets[point.net]? = some net ∧ net.isRoot = true ∧ point.bit < net.width

namespace Draft

variable {draft : Draft} {widths : List Nat} {joins : List (Nat × Nat)}
  {splices : List (WireBit × WireBit)}

-----------------------------------------------------------------------------------------
-- Nets of wires
-----------------------------------------------------------------------------------------

/-- The net that a wire belongs to. -/
def netOf (draft : Draft) (wire : Nat) : Nat :=
  draft.rootWires.idxOf (draft.wires.classOf wire)

/-- The place of a wire bit in its own net. -/
def place (draft : Draft) (bit : WireBit) : Point := ⟨draft.netOf bit.wire, bit.bit⟩

/-- The class of a wire bit. -/
def bitClass (draft : Draft) (bit : WireBit) : Nat :=
  draft.bits.classOf (bitIndex draft.widths bit)

theorem Collected.classOf_mem_rootWires (collected : draft.Collected widths joins splices)
    {wire : Nat} (inside : wire < widths.length)
    : draft.wires.classOf wire ∈ draft.rootWires := by
  have le := draft.wires.classOf_le wire
  simp only [rootWires, List.mem_filter, List.mem_range, decide_eq_true_eq]
  rw [collected.widths_eq]
  exact ⟨Nat.lt_of_le_of_lt le inside, collected.wires.descending.classOf_classOf wire⟩

theorem Collected.netOf_eq_iff (collected : draft.Collected widths joins splices) {a b : Nat}
    (insideA : a < widths.length) (insideB : b < widths.length)
    : draft.netOf a = draft.netOf b
      ↔ Relation.EqvGen (fun a b => (a, b) ∈ joins) a b := by
  rw [← collected.wires.same_iff a b insideA insideB]
  exact List.idxOf_inj (collected.classOf_mem_rootWires insideA)

theorem wireNets_getElem? (wire : Nat)
    : draft.wireNets[wire]?
      = if wire < draft.widths.length then some (draft.netOf wire) else none := by
  by_cases inside : wire < draft.widths.length <;> simp [wireNets, netOf, inside]

/-- The frozen net of a wire is as wide as the wire. -/
theorem Collected.freeze_net (collected : draft.Collected widths joins splices)
    {wire width : Nat} (found : widths[wire]? = some width)
    : ∃ net, draft.freeze.nets[draft.netOf wire]? = some net ∧ net.width = width := by
  have inside : wire < widths.length := (List.getElem?_eq_some_iff.mp found).1
  have root := collected.classOf_mem_rootWires inside
  have position : draft.rootWires[draft.netOf wire]? = some (draft.wires.classOf wire) :=
    List.getElem?_idxOf root
  have joined : Relation.EqvGen (fun a b => (a, b) ∈ joins) (draft.wires.classOf wire) wire := by
    have le := draft.wires.classOf_le wire
    rw [← collected.wires.same_iff _ _ (by omega) inside]
    exact collected.wires.descending.classOf_classOf wire
  have width_eq : draft.widths.getD (draft.wires.classOf wire) 0 = width := by
    rw [collected.widths_eq, List.getD_eq_getElem?_getD,
      (collected.connected_of_joined joined).1, found, Option.getD_some]
  simp only [freeze, List.getElem?_mapIdx, position]
  exact ⟨_, rfl, width_eq⟩

-----------------------------------------------------------------------------------------
-- Tagged points
-----------------------------------------------------------------------------------------

/-- All points with their classes, wire by wire. -/
def taggedPoints (draft : Draft) : List (List TaggedPoint) :=
  tagBits draft.bits 0 (draft.widths.zip draft.wireNets)

theorem tagBits_getElem? (bits : Partition) (first : Nat) (wires : List (Nat × Nat))
    (wire : Nat)
    : (tagBits bits first wires)[wire]?
      = wires[wire]?.map (fun (width, net) =>
          (List.range width).map (fun bit =>
            ⟨bits.classOf (first + bitsBefore (wires.map Prod.fst) wire + bit), ⟨net, bit⟩⟩)) := by
  induction wires generalizing first wire with
  | nil => simp [tagBits]
  | cons head rest ih =>
      cases wire with
      | zero => simp [tagBits, bitsBefore]
      | succ wire => simp [tagBits, ih, bitsBefore, Nat.add_assoc]

theorem taggedPoints_getElem? {wire width : Nat} (found : draft.widths[wire]? = some width)
    : draft.taggedPoints[wire]?
      = some ((List.range width).map (fun bit =>
          ⟨draft.bitClass ⟨wire, bit⟩, draft.place ⟨wire, bit⟩⟩)) := by
  have inside : wire < draft.widths.length := (List.getElem?_eq_some_iff.mp found).1
  have zipped : (draft.widths.zip draft.wireNets)[wire]? = some (width, draft.netOf wire) := by
    rw [List.getElem?_zip_eq_some]
    exact ⟨found, by rw [wireNets_getElem?, if_pos inside]⟩
  have firsts : (draft.widths.zip draft.wireNets).map Prod.fst = draft.widths :=
    List.map_fst_zip (by simp [wireNets])
  rw [taggedPoints, tagBits_getElem?, zipped, firsts]
  simp [bitClass, place, bitIndex]

theorem taggedPoints_eq_none {wire : Nat} (absent : draft.widths[wire]? = none)
    : draft.taggedPoints[wire]? = none := by
  have short := List.getElem?_eq_none_iff.mp absent
  rw [taggedPoints, tagBits_getElem?, List.getElem?_eq_none (by simp; omega)]
  rfl

/-- The tagged points are the places of the wire bits, each with its class. -/
theorem mem_taggedPoints {candidate : TaggedPoint}
    : candidate ∈ draft.taggedPoints.flatten
      ↔ ∃ bit, HasBit draft.widths bit ∧ candidate = ⟨draft.bitClass bit, draft.place bit⟩ := by
  rw [List.mem_flatten]
  constructor
  · rintro ⟨wirePoints, member, here⟩
    obtain ⟨wire, found⟩ := List.mem_iff_getElem?.mp member
    cases known : draft.widths[wire]? with
    | none =>
        rw [taggedPoints_eq_none known] at found
        cases found
    | some width =>
        rw [taggedPoints_getElem? known] at found
        obtain rfl := Option.some.inj found
        obtain ⟨bit, lower, rfl⟩ := List.mem_map.mp here
        exact ⟨⟨wire, bit⟩, ⟨width, known, List.mem_range.mp lower⟩, rfl⟩
  · rintro ⟨bit, ⟨width, found, lower⟩, rfl⟩
    exact ⟨_, List.mem_of_getElem? (taggedPoints_getElem? found),
      List.mem_map.mpr ⟨bit.bit, List.mem_range.mpr lower, rfl⟩⟩

-----------------------------------------------------------------------------------------
-- The preferred point of a class
-----------------------------------------------------------------------------------------

/-- The preferred one of some points. -/
def preferredOf (netWidths : Array Nat) (points : List Point) : Option Point :=
  points.foldl (fun best point => some (better netWidths best point)) none

theorem better_eq_or {netWidths : Array Nat} {best : Option Point} {point : Point}
    : better netWidths best point = point ∨ best = some (better netWidths best point) := by
  cases best with
  | none => exact Or.inl rfl
  | some found =>
      simp only [better]
      split
      · exact Or.inl rfl
      · exact Or.inr rfl

/-- The preferred point of a list is one of its points, by induction from the last point on. -/
theorem preferredOf_mem {netWidths : Array Nat} {points : List Point} {best : Point}
    (h : preferredOf netWidths points = some best)
    : best ∈ points := by
  induction points using List.reverseRecOn generalizing best with
  | nil => cases h
  | append_singleton points last ih =>
      simp only [preferredOf, List.foldl_append, List.foldl_cons, List.foldl_nil,
        Option.some.injEq] at h
      rcases @better_eq_or netWidths (preferredOf netWidths points) last with new | old
      · have : last = best := new.symm.trans h
        simp [this]
      · have : preferredOf netWidths points = some best := old.trans (congrArg some h)
        exact List.mem_append_left _ (ih this)

theorem preferredOf_isSome {netWidths : Array Nat} {points : List Point} (some : points ≠ [])
    : (preferredOf netWidths points).isSome := by
  induction points using List.reverseRecOn with
  | nil => exact absurd rfl some
  | append_singleton points last _ => simp [preferredOf]

/-- One pass over all points finds the preferred point of each class, by induction on the points.
-/
theorem getD_bestPoints (netWidths : Array Nat) {classes : Nat} (tagged : List TaggedPoint)
    {bitClass : Nat} (inside : bitClass < classes)
    : (bestPoints netWidths classes tagged).getD bitClass none
      = preferredOf netWidths
          ((tagged.filter (·.bitClass = bitClass)).map TaggedPoint.point) := by
  have pass (best : Array (Option Point)) (bound : bitClass < best.size)
      : (tagged.foldl
          (fun best candidate =>
            best.modify candidate.bitClass (fun found =>
              some (better netWidths found candidate.point))) best).getD bitClass none
        = ((tagged.filter (·.bitClass = bitClass)).map TaggedPoint.point).foldl
            (fun best point => some (better netWidths best point)) (best.getD bitClass none) := by
    induction tagged generalizing best with
    | nil => rfl
    | cons candidate rest ih =>
        rw [List.foldl_cons, ih _ (by simpa using bound)]
        by_cases here : candidate.bitClass = bitClass
        · simp [here, Array.getD, bound, Array.getElem_modify]
        · simp [here, Array.getD, bound, Array.getElem_modify]
  rw [bestPoints, pass _ (by simpa using inside)]
  simp [preferredOf, Array.getD, inside]

-----------------------------------------------------------------------------------------
-- Canonical points
-----------------------------------------------------------------------------------------

/-- The places of the bits of a class. -/
def classPlaces (draft : Draft) (bitClass : Nat) : List Point :=
  (draft.taggedPoints.flatten.filter (·.bitClass = bitClass)).map TaggedPoint.point

theorem mem_classPlaces {bitClass : Nat} {point : Point}
    : point ∈ draft.classPlaces bitClass
      ↔ ∃ bit,
          HasBit draft.widths bit ∧ draft.bitClass bit = bitClass ∧ draft.place bit = point := by
  simp only [classPlaces, List.mem_map, List.mem_filter, mem_taggedPoints, decide_eq_true_eq]
  constructor
  · rintro ⟨candidate, ⟨⟨bit, has, rfl⟩, sameClass⟩, rfl⟩
    exact ⟨bit, has, sameClass, rfl⟩
  · rintro ⟨bit, has, sameClass, rfl⟩
    exact ⟨_, ⟨⟨bit, has, rfl⟩, sameClass⟩, rfl⟩

/-- The canonical point of a class. -/
def canonicalOfClass? (draft : Draft) (bitClass : Nat) : Option Point :=
  preferredOf draft.netWidths.toArray (draft.classPlaces bitClass)

theorem canonicalOfClass?_isSome {bit : WireBit} (has : HasBit draft.widths bit)
    : (draft.canonicalOfClass? (draft.bitClass bit)).isSome :=
  preferredOf_isSome (List.ne_nil_of_mem (mem_classPlaces.2 ⟨bit, has, rfl, rfl⟩))

/-- The canonical points of all wire bits, wire by wire. -/
def canonicalLists (draft : Draft) : List (List Point) :=
  let best :=
    bestPoints draft.netWidths.toArray (totalBits draft.widths) draft.taggedPoints.flatten
  draft.taggedPoints.map (fun wire =>
    wire.map (fun candidate => (best.getD candidate.bitClass none).getD candidate.point))

theorem freeze_canonicalPoints
    : draft.freeze.canonicalPoints = (draft.canonicalLists.map List.toArray).toArray :=
  rfl

theorem freeze_isRoot {position : Nat} {net : Net}
    (found : draft.freeze.nets[position]? = some net)
    : net.isRoot
      = draft.canonicalLists.any (fun wire => wire.any (fun point => point.net = position)) := by
  simp only [freeze, List.getElem?_mapIdx, Option.map_eq_some_iff] at found
  obtain ⟨wire, _, rfl⟩ := found
  rfl

/-- A wire carries the canonical points of the classes of its bits. -/
theorem canonicalLists_getElem? {bit : WireBit} {width : Nat}
    (found : draft.widths[bit.wire]? = some width) (lower : bit.bit < width)
    : ∃ points,
        draft.canonicalLists[bit.wire]? = some points
        ∧ points[bit.bit]? = draft.canonicalOfClass? (draft.bitClass bit) := by
  have has : HasBit draft.widths bit := ⟨width, found, lower⟩
  have inside : draft.bitClass bit < totalBits draft.widths :=
    Nat.lt_of_le_of_lt (draft.bits.classOf_le _) (bitIndex_lt has)
  obtain ⟨canonical, chosen⟩ := Option.isSome_iff_exists.mp (canonicalOfClass?_isSome has)
  have best := getD_bestPoints draft.netWidths.toArray draft.taggedPoints.flatten inside
  rw [← classPlaces, ← canonicalOfClass?, chosen] at best
  rw [canonicalLists, List.getElem?_map, taggedPoints_getElem? found]
  refine ⟨_, rfl, ?_⟩
  rw [List.getElem?_map, List.getElem?_map, List.getElem?_range lower]
  simp only [Option.map_some, best, Option.getD_some, chosen]

/-- Every listed point is the canonical point of a wire bit. -/
theorem exists_of_mem_canonicalLists {points : List Point} {point : Point}
    (listed : points ∈ draft.canonicalLists) (here : point ∈ points)
    : ∃ bit,
        HasBit draft.widths bit ∧ draft.canonicalOfClass? (draft.bitClass bit) = some point := by
  obtain ⟨wire, found⟩ := List.mem_iff_getElem?.mp listed
  obtain ⟨bit, atBit⟩ := List.mem_iff_getElem?.mp here
  cases known : draft.widths[wire]? with
  | none =>
      rw [canonicalLists, List.getElem?_map, taggedPoints_eq_none known] at found
      cases found
  | some width =>
      have lower : bit < width := by
        have inside := (List.getElem?_eq_some_iff.mp atBit).1
        rw [canonicalLists, List.getElem?_map, taggedPoints_getElem? known] at found
        simpa [← Option.some.inj found] using inside
      obtain ⟨others, atWire, canonical⟩ :=
        @canonicalLists_getElem? draft ⟨wire, bit⟩ width known lower
      obtain rfl := Option.some.inj (found.symm.trans atWire)
      exact ⟨⟨wire, bit⟩, ⟨width, known, lower⟩, canonical.symm.trans atBit⟩

/-- A frozen wire bit has the canonical point of its class. -/
theorem pointAt_freeze {bit : WireBit} (has : HasBit draft.widths bit)
    : draft.freeze.pointAt bit.wire bit.bit
      = draft.canonicalOfClass? (draft.bitClass bit) := by
  obtain ⟨width, found, lower⟩ := has
  obtain ⟨points, atWire, atBit⟩ := canonicalLists_getElem? found lower
  rw [← atBit]
  simp [Table.pointAt, freeze_canonicalPoints, atWire]

/-- The canonical point of a class is the place of one of its bits. -/
theorem canonicalOfClass_place {bitClass : Nat} {point : Point}
    (h : draft.canonicalOfClass? bitClass = some point)
    : ∃ bit,
        HasBit draft.widths bit ∧ draft.bitClass bit = bitClass ∧ draft.place bit = point :=
  mem_classPlaces.1 (preferredOf_mem h)

/-- A connection to a wire bit resolves to the canonical point of the bit's class. -/
theorem Collected.canonical?_freeze (collected : draft.Collected widths joins splices)
    {bit : WireBit} (has : HasBit widths bit)
    : draft.freeze.canonical? bit = draft.canonicalOfClass? (draft.bitClass bit) := by
  obtain ⟨width, found, lower⟩ := id has
  obtain ⟨net, atNet, wide⟩ := collected.freeze_net found
  have widthsEq := collected.widths_eq
  subst widthsEq
  have inside : bit.wire < draft.widths.length := (List.getElem?_eq_some_iff.mp found).1
  have wireNet : draft.freeze.netOfWire? bit.wire = some (draft.netOf bit.wire) := by
    simp [Table.netOfWire?, freeze, wireNets_getElem?, inside]
  have netWidth : draft.freeze.widthAt (draft.netOf bit.wire) = width := by
    simp [Table.widthAt, atNet, wide]
  rw [← pointAt_freeze has]
  simp [Table.canonical?, wireNet, netWidth, Nat.not_le.mpr lower]

/-- Resolving fails outside the wires. -/
theorem Collected.hasBit_of_canonical? (collected : draft.Collected widths joins splices)
    {bit : WireBit} {point : Point} (h : draft.freeze.canonical? bit = some point)
    : HasBit widths bit := by
  have widthsEq := collected.widths_eq
  subst widthsEq
  simp only [Table.canonical?, Option.bind_eq_bind, Option.bind_eq_some_iff] at h
  obtain ⟨net, atWire, h⟩ := h
  have known : draft.wireNets[bit.wire]? = some net := atWire
  rw [wireNets_getElem?] at known
  split at known
  · next inside =>
      obtain rfl := Option.some.inj known
      have found : draft.widths[bit.wire]? = some draft.widths[bit.wire] :=
        List.getElem?_eq_getElem inside
      obtain ⟨net, atNet, wide⟩ := collected.freeze_net found
      have netWidth : draft.freeze.widthAt (draft.netOf bit.wire) = draft.widths[bit.wire] := by
        simp [Table.widthAt, atNet, wide]
      rw [netWidth] at h
      split at h
      · cases h
      · next lower => exact ⟨_, found, Nat.lt_of_not_le lower⟩
  · cases known

/-- The place of a bit determines its class: bits at one place of one net are connected. -/
theorem Collected.connected_of_place_eq (collected : draft.Collected widths joins splices)
    {a b : WireBit} (hasA : HasBit widths a) (hasB : HasBit widths b)
    (same : draft.place a = draft.place b)
    : Relation.EqvGen (Tied widths joins splices) a b := by
  obtain ⟨wireA, bit⟩ := a
  obtain ⟨wireB, bitB⟩ := b
  obtain ⟨netSame, rfl⟩ := Point.mk.inj same
  have insideA : wireA < widths.length := by
    obtain ⟨width, found, -⟩ := hasA
    exact (List.getElem?_eq_some_iff.mp found).1
  have insideB : wireB < widths.length := by
    obtain ⟨width, found, -⟩ := hasB
    exact (List.getElem?_eq_some_iff.mp found).1
  exact (collected.connected_of_joined ((collected.netOf_eq_iff insideA insideB).1 netSame)).2
    bit hasA

/-- Two wire bits resolve to one point just when they are connected. -/
theorem Collected.canonical?_eq_iff (collected : draft.Collected widths joins splices)
    {a b : WireBit} (hasA : HasBit widths a) (hasB : HasBit widths b)
    : draft.freeze.canonical? a = draft.freeze.canonical? b
      ↔ Relation.EqvGen (Tied widths joins splices) a b := by
  rw [collected.canonical?_freeze hasA, collected.canonical?_freeze hasB]
  have widthsEq := collected.widths_eq
  subst widthsEq
  have classes {x y} (hasX : HasBit draft.widths x) (hasY : HasBit draft.widths y)
      : draft.bitClass x = draft.bitClass y
        ↔ Relation.EqvGen (Tied draft.widths joins splices) x y :=
    collected.bits.same_iff x y hasX hasY
  constructor
  · intro same
    obtain ⟨point, chosen⟩ := Option.isSome_iff_exists.mp (canonicalOfClass?_isSome hasA)
    obtain ⟨x, hasX, classX, placeX⟩ := canonicalOfClass_place chosen
    obtain ⟨y, hasY, classY, placeY⟩ := canonicalOfClass_place (same.symm.trans chosen)
    have between := collected.connected_of_place_eq hasX hasY (placeX.trans placeY.symm)
    exact .trans _ _ _ ((classes hasA hasX).1 classX.symm)
      (.trans _ _ _ between ((classes hasY hasB).1 classY))
  · intro chain
    rw [(classes hasA hasB).2 chain]

/-- A resolved point is a bit of a root net. -/
theorem Collected.canonical?_rooted (collected : draft.Collected widths joins splices)
    {bit : WireBit} {point : Point} (h : draft.freeze.canonical? bit = some point)
    : draft.freeze.Rooted point := by
  have has := collected.hasBit_of_canonical? h
  rw [collected.canonical?_freeze has] at h
  have widthsEq := collected.widths_eq
  subst widthsEq
  obtain ⟨width, found, lower⟩ := has
  obtain ⟨points, atWire, atBit⟩ := canonicalLists_getElem? found lower
  obtain ⟨other, ⟨otherWidth, otherFound, otherLower⟩, sameClass, placed⟩ :=
    canonicalOfClass_place h
  obtain ⟨net, atNet, wide⟩ := collected.freeze_net otherFound
  subst placed
  have listed
      : draft.canonicalLists.any
          (fun wire => wire.any (fun point => point.net = draft.netOf other.wire)) := by
    rw [List.any_eq_true]
    refine ⟨points, List.mem_of_getElem? atWire, List.any_eq_true.mpr ?_⟩
    exact ⟨draft.place other, List.mem_of_getElem? (atBit.trans h), by simp [place]⟩
  refine ⟨net, atNet, ?_, wide ▸ otherLower⟩
  rw [freeze_isRoot atNet]
  exact listed

end Draft

end SchematicHdl.Net
