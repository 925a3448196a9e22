import SchematicHdl.Proofs.Net.Requests

/-! The table of a circuit as a function of its connectivity. A partition keeps the least member of
each class, so two drafts whose calls generate the same equivalences freeze to one table: nets are
numbered by their least wires, and the canonical point of a class is the one that outranks all its
other places.
-/

namespace SchematicHdl.Net

-----------------------------------------------------------------------------------------
-- Least members
-----------------------------------------------------------------------------------------

/-- What is connected to a member is a member. -/
theorem Partition.Represents.member_iff {α : Type} {partition : Partition} {member : α → Prop}
    {number : α → Nat} {pairs : α → α → Prop}
    (represents : partition.Represents member number pairs) {x y : α}
    (chain : Relation.EqvGen pairs x y)
    : member x ↔ member y :=
  (eqvGen_value represents.closed (fun _ => ()) (fun _ _ _ => rfl) chain).1

/-- The more is connected, the lower are the least members of the classes. -/
theorem Partition.Represents.classOf_anti {α : Type} {one other : Partition} {member : α → Prop}
    {number : α → Nat} {pairs more : α → α → Prop} (first : one.Represents member number pairs)
    (second : other.Represents member number more)
    (wider : ∀ x y, Relation.EqvGen pairs x y → Relation.EqvGen more x y) {x : α} (has : member x)
    (onto : ∀ n ≤ number x, ∃ y, member y ∧ number y = n)
    : other.classOf (number x) ≤ one.classOf (number x) := by
  obtain ⟨least, isMember, atLeast⟩ := onto _ (one.classOf_le (number x))
  have same : one.classOf (number least) = one.classOf (number x) := by
    rw [atLeast]
    exact first.descending.classOf_classOf _
  have chain := wider _ _ ((first.same_iff least x isMember has).1 same)
  rw [← (second.same_iff least x isMember has).2 chain, ← atLeast]
  exact other.classOf_le (number least)

/-- Every number below the total is the number of a wire bit, by induction on the wires. -/
theorem exists_bitIndex_eq {widths : List Nat} {number : Nat} (lower : number < totalBits widths)
    : ∃ bit, HasBit widths bit ∧ bitIndex widths bit = number := by
  induction widths generalizing number with
  | nil => exact absurd lower (Nat.not_lt_zero number)
  | cons width rest ih =>
      rcases Nat.lt_or_ge number width with here | later
      · exact ⟨⟨0, number⟩, ⟨width, rfl, here⟩, by simp [bitIndex, bitsBefore]⟩
      · have below : number - width < totalBits rest := by simp only [totalBits] at lower; omega
        obtain ⟨⟨wire, bit⟩, has, numbered⟩ := ih below
        refine ⟨⟨wire + 1, bit⟩, has, ?_⟩
        simp only [bitIndex, bitsBefore] at numbered ⊢
        omega

-----------------------------------------------------------------------------------------
-- Predicates on tables
-----------------------------------------------------------------------------------------

namespace Table

/-- The first point is preferred to the second: it lies in a wider net, or in an earlier net of the
same width, or at a lower bit of the same net.
-/
def Outranks (table : Table) (a b : Point) : Prop :=
  table.widthAt b.net < table.widthAt a.net
    ∨ (table.widthAt a.net = table.widthAt b.net
      ∧ (a.net < b.net ∨ (a.net = b.net ∧ a.bit < b.bit)))

/-- Nets are numbered by their least wires, and are as wide as all their wires. -/
structure NumbersNets (table : Table) (widths : List Nat) (joined : Nat → Nat → Prop)
    : Prop where
  ascending : (table.nets.map Net.firstWire).Pairwise (· < ·)
  netOfWire
    : ∀ wire width,
        widths[wire]? = some width
        → ∃ position net,
            table.netOfWire? wire = some position
            ∧ table.nets[position]? = some net
            ∧ net.width = width
            ∧ joined net.firstWire wire
            ∧ ∀ other, joined other wire → net.firstWire ≤ other
  netOfFirstWire
    : ∀ position net,
        table.nets[position]? = some net
        → table.netOfWire? net.firstWire = some position
  outside : ∀ wire, widths[wire]? = none → table.netOfWire? wire = none

/-- The wire bit lies at the point: in the net of its wire, at its own place. -/
def Places (table : Table) (bit : WireBit) (point : Point) : Prop :=
  table.netOfWire? bit.wire = some point.net ∧ bit.bit = point.bit

/-- Every wire bit resolves to the place of a bit of its class that outranks all other places of
the class.
-/
structure ChoosesPoints (table : Table) (widths : List Nat)
    (connected : WireBit → WireBit → Prop)
    : Prop where
  chosen
    : ∀ bit,
        HasBit widths bit
        → ∃ point,
            table.canonical? bit = some point
            ∧ (∃ other, connected other bit ∧ table.Places other point)
            ∧ ∀ other place,
                connected other bit
                → table.Places other place
                → place = point ∨ table.Outranks point place
  outside : ∀ bit, ¬ HasBit widths bit → table.canonical? bit = none

end Table

namespace Draft

variable {draft : Draft} {widths : List Nat} {joins : List (Nat × Nat)}
  {splices : List (WireBit × WireBit)} {requests : List Request}

-----------------------------------------------------------------------------------------
-- What the table is made of
-----------------------------------------------------------------------------------------

/-- The table reads the classes of the wires and of the wire bits, and nothing else of the
partitions.
-/
theorem freeze_congr {one other : Draft} (scope : one.scope = other.scope)
    (widths : one.widths = other.widths)
    (wires : ∀ wire < other.widths.length, one.wires.classOf wire = other.wires.classOf wire)
    (bits
      : ∀ number < totalBits other.widths,
          one.bits.classOf number = other.bits.classOf number)
    : one.freeze = other.freeze := by
  have roots : one.rootWires = other.rootWires := by
    rw [rootWires, rootWires, widths]
    refine List.filter_congr fun wire member => ?_
    rw [wires wire (List.mem_range.mp member)]
  have nets : one.wireNets = other.wireNets := by
    simp only [wireNets, roots, widths]
    refine List.map_congr_left fun wire member => ?_
    rw [wires wire (List.mem_range.mp member)]
  have tagged : one.taggedPoints = other.taggedPoints := by
    refine List.ext_getElem? fun wire => ?_
    cases known : other.widths[wire]? with
    | none => rw [taggedPoints_eq_none (widths ▸ known), taggedPoints_eq_none known]
    | some width =>
        rw [taggedPoints_getElem? (widths ▸ known), taggedPoints_getElem? known]
        refine congrArg some (List.map_congr_left fun bit member => ?_)
        have has : HasBit other.widths ⟨wire, bit⟩ := ⟨width, known, List.mem_range.mp member⟩
        have inside := (List.getElem?_eq_some_iff.mp known).1
        simp only [bitClass, place, netOf, roots, widths, bits _ (bitIndex_lt has),
          wires _ inside]
  have netWidths : one.netWidths = other.netWidths := by simp only [Draft.netWidths, roots, widths]
  simp only [taggedPoints, nets, widths] at tagged
  simp only [freeze, scope, nets, tagged, netWidths, roots, widths]

/-- Drafts that stand for the same equivalences freeze to one table. -/
theorem Collected.freeze_eq {one other : Draft} {moreJoins : List (Nat × Nat)}
    {moreSplices : List (WireBit × WireBit)} (first : one.Collected widths joins splices)
    (second : other.Collected widths moreJoins moreSplices) (scope : one.scope = other.scope)
    (sameWires
      : ∀ a b,
          Relation.EqvGen (fun a b => (a, b) ∈ joins) a b
          ↔ Relation.EqvGen (fun a b => (a, b) ∈ moreJoins) a b)
    (sameBits
      : ∀ a b,
          Relation.EqvGen (Tied widths joins splices) a b
          ↔ Relation.EqvGen (Tied widths moreJoins moreSplices) a b)
    : one.freeze = other.freeze := by
  refine freeze_congr scope (first.widths_eq.trans second.widths_eq.symm) ?_ ?_
  · intro wire inside
    rw [second.widths_eq] at inside
    have onto (n : Nat) (le : n ≤ id wire) : ∃ y, y < widths.length ∧ id y = n :=
      ⟨n, Nat.lt_of_le_of_lt le inside, rfl⟩
    exact Nat.le_antisymm
      (second.wires.classOf_anti first.wires (fun a b => (sameWires a b).2) inside onto)
      (first.wires.classOf_anti second.wires (fun a b => (sameWires a b).1) inside onto)
  · intro number lower
    rw [second.widths_eq] at lower
    obtain ⟨bit, has, rfl⟩ := exists_bitIndex_eq lower
    have onto (n : Nat) (le : n ≤ bitIndex widths bit)
        : ∃ y, HasBit widths y ∧ bitIndex widths y = n :=
      exists_bitIndex_eq (Nat.lt_of_le_of_lt le lower)
    exact Nat.le_antisymm
      (second.bits.classOf_anti first.bits (fun a b => (sameBits a b).2) has onto)
      (first.bits.classOf_anti second.bits (fun a b => (sameBits a b).1) has onto)

-----------------------------------------------------------------------------------------
-- Numbering
-----------------------------------------------------------------------------------------

theorem rootWires_ascending : draft.rootWires.Pairwise (· < ·) :=
  List.pairwise_lt_range.filter _

theorem freeze_firstWires : draft.freeze.nets.map Net.firstWire = draft.rootWires := by
  refine List.ext_getElem? fun position => ?_
  simp only [freeze, List.getElem?_map, List.getElem?_mapIdx]
  cases draft.rootWires[position]? <;> rfl

/-- The first wire of a net is the least wire of its class. -/
theorem firstWire_mem_rootWires {position : Nat} {net : Net}
    (found : draft.freeze.nets[position]? = some net)
    : draft.rootWires[position]? = some net.firstWire := by
  rw [← freeze_firstWires, List.getElem?_map, found]
  rfl

theorem netOfWire?_freeze (wire : Nat)
    : draft.freeze.netOfWire? wire
      = if wire < draft.widths.length then some (draft.netOf wire) else none :=
  wireNets_getElem? wire

theorem Collected.numbersNets (collected : draft.Collected widths joins splices)
    : draft.freeze.NumbersNets widths (Relation.EqvGen (fun a b => (a, b) ∈ joins)) := by
  have widthsEq := collected.widths_eq
  subst widthsEq
  refine ⟨freeze_firstWires ▸ rootWires_ascending, ?_, ?_, ?_⟩
  · intro wire width found
    have inside := (List.getElem?_eq_some_iff.mp found).1
    obtain ⟨net, atNet, wide⟩ := collected.freeze_net found
    have first : net.firstWire = draft.wires.classOf wire := by
      have position := List.getElem?_idxOf (collected.classOf_mem_rootWires inside)
      exact Option.some.inj ((firstWire_mem_rootWires atNet).symm.trans position)
    refine ⟨draft.netOf wire, net, by rw [netOfWire?_freeze, if_pos inside], atNet, wide, ?_, ?_⟩
    · have le := draft.wires.classOf_le wire
      rw [first, ← collected.wires.same_iff _ wire (Nat.lt_of_le_of_lt le inside) inside]
      exact collected.wires.descending.classOf_classOf wire
    · intro other chain
      have insideOther := (collected.wires.member_iff chain).2 inside
      have same := (collected.wires.same_iff other wire insideOther inside).2 chain
      rw [first]
      exact same ▸ draft.wires.classOf_le other
  · intro position net found
    have root := firstWire_mem_rootWires found
    obtain ⟨bound, atRoot⟩ := List.getElem?_eq_some_iff.mp root
    have listed := List.mem_of_getElem? root
    simp only [rootWires, List.mem_filter, List.mem_range, decide_eq_true_eq] at listed
    rw [netOfWire?_freeze, if_pos listed.1, netOf, listed.2, ← atRoot]
    have distinct : draft.rootWires.Nodup := rootWires_ascending.imp Nat.ne_of_lt
    rw [distinct.idxOf_getElem]
  · intro wire outside
    rw [netOfWire?_freeze, if_neg (Nat.not_lt.mpr (List.getElem?_eq_none_iff.mp outside))]

-----------------------------------------------------------------------------------------
-- Choice
-----------------------------------------------------------------------------------------

theorem preferred_iff {netWidths : Array Nat} {a b : Point}
    : preferred netWidths a b = true
      ↔ netWidths.getD b.net 0 < netWidths.getD a.net 0
        ∨ (netWidths.getD a.net 0 = netWidths.getD b.net 0
          ∧ (a.net < b.net ∨ (a.net = b.net ∧ a.bit < b.bit))) := by
  simp [preferred]

theorem preferred_trans {netWidths : Array Nat} {a b c : Point}
    (first : preferred netWidths a b = true) (second : preferred netWidths b c = true)
    : preferred netWidths a c = true := by
  rw [preferred_iff] at first second ⊢
  omega

theorem preferred_irrefl {netWidths : Array Nat} (a : Point)
    : ¬ preferred netWidths a a = true := by
  rw [preferred_iff]
  omega

/-- Of two points that are not the same one is preferred. -/
theorem preferred_total {netWidths : Array Nat} {a b : Point}
    (worse : ¬ preferred netWidths a b = true)
    : a = b ∨ preferred netWidths b a = true := by
  rw [preferred_iff] at worse ⊢
  rw [Point.mk.injEq (a.net) a.bit b.net b.bit]
  omega

/-- No point is preferred to the preferred one, by induction from the last point on. -/
theorem not_preferred_preferredOf {netWidths : Array Nat} {points : List Point} {best : Point}
    (chosen : preferredOf netWidths points = some best) {point : Point} (member : point ∈ points)
    : ¬ preferred netWidths point best = true := by
  induction points using List.reverseRecOn generalizing best with
  | nil => cases member
  | append_singleton points last ih =>
      simp only [preferredOf, List.foldl_append, List.foldl_cons, List.foldl_nil,
        Option.some.injEq] at chosen
      change better netWidths (preferredOf netWidths points) last = best at chosen
      cases before : preferredOf netWidths points with
      | none =>
          have empty : points = [] := by
            by_contra some
            have isSome : (preferredOf netWidths points).isSome := preferredOf_isSome some
            simp [before] at isSome
          subst empty
          obtain rfl := List.mem_singleton.mp member
          rw [before] at chosen
          exact chosen ▸ preferred_irrefl _
      | some found =>
          rw [before, better] at chosen
          split at chosen
          · next improves =>
              subst chosen
              rcases List.mem_append.mp member with old | new
              · exact fun worse => ih before old (preferred_trans worse improves)
              · obtain rfl := List.mem_singleton.mp new
                exact preferred_irrefl _
          · next keeps =>
              subst chosen
              rcases List.mem_append.mp member with old | new
              · exact ih before old
              · obtain rfl := List.mem_singleton.mp new
                exact keeps

theorem widthAt_freeze (net : Nat)
    : draft.freeze.widthAt net = draft.netWidths.toArray.getD net 0 := by
  have widths : draft.freeze.nets.map Net.width = draft.netWidths := by
    refine List.ext_getElem? fun position => ?_
    simp only [freeze, netWidths, List.getElem?_map, List.getElem?_mapIdx]
    cases draft.rootWires[position]? <;> rfl
  rw [Table.widthAt, ← List.getElem?_map, widths]
  simp [Array.getD_eq_getD_getElem?]

theorem outranks_of_preferred {a b : Point}
    (better : preferred draft.netWidths.toArray a b = true)
    : draft.freeze.Outranks a b := by
  rw [preferred_iff, ← widthAt_freeze, ← widthAt_freeze] at better
  exact better

theorem place_eq_of_places {bit : WireBit} {point : Point}
    (places : draft.freeze.Places bit point)
    : draft.place bit = point := by
  obtain ⟨atWire, atBit⟩ := places
  rw [netOfWire?_freeze] at atWire
  split at atWire
  · cases point
    simp_all [place]
  · cases atWire

theorem places_place {bit : WireBit} (has : HasBit draft.widths bit)
    : draft.freeze.Places bit (draft.place bit) := by
  obtain ⟨width, found, -⟩ := has
  have inside := (List.getElem?_eq_some_iff.mp found).1
  exact ⟨by rw [netOfWire?_freeze, if_pos inside, place], rfl⟩

theorem Collected.choosesPoints (collected : draft.Collected widths joins splices)
    : draft.freeze.ChoosesPoints widths (Relation.EqvGen (Tied widths joins splices)) := by
  have widthsEq := collected.widths_eq
  subst widthsEq
  refine ⟨fun bit has => ?_, fun bit absent => ?_⟩
  · obtain ⟨point, chosen⟩ := Option.isSome_iff_exists.mp (canonicalOfClass?_isSome has)
    obtain ⟨other, hasOther, sameClass, placed⟩ := canonicalOfClass_place chosen
    refine ⟨point, (collected.canonical?_freeze has).trans chosen, ?_, ?_⟩
    · exact ⟨other, (collected.bits.same_iff other bit hasOther has).1 sameClass,
        placed ▸ places_place hasOther⟩
    · intro rival place chain places
      have hasRival := (collected.bits.member_iff chain).2 has
      have sameClass := (collected.bits.same_iff rival bit hasRival has).2 chain
      have listed : place ∈ draft.classPlaces (draft.bitClass bit) :=
        mem_classPlaces.2 ⟨rival, hasRival, sameClass, place_eq_of_places places⟩
      exact (preferred_total (not_preferred_preferredOf chosen listed)).imp_right
        outranks_of_preferred
  · cases resolved : draft.freeze.canonical? bit with
    | none => rfl
    | some point => exact absurd (collected.hasBit_of_canonical? resolved) absent

-----------------------------------------------------------------------------------------
-- Connectivity alone
-----------------------------------------------------------------------------------------

theorem Answers.joined_eq (answers : draft.Answers widths requests joins splices)
    : Joined widths requests = Relation.EqvGen (fun a b => (a, b) ∈ joins) := by
  have pairs : (fun a b => (a, b) ∈ joins)
      = fun a b => ∃ request ∈ requests, request.Joins widths a b := by
    funext a b
    exact propext (answers.joins_iff a b)
  rw [pairs, Joined]

theorem Answers.connected_eq (answers : draft.Answers widths requests joins splices)
    : Connected widths requests = Relation.EqvGen (Tied widths joins splices) := by
  have pairs : Tied widths joins splices
      = fun a b => ∃ request ∈ requests, request.Ties widths a b := by
    funext a b
    exact propext (answers.tied_iff a b)
  rw [pairs, Connected]

/-- Requests whose joins others bring about join no more wires than the others. -/
theorem joined_of_joins {others : List Request}
    (each : ∀ request ∈ requests, ∀ a b, request.Joins widths a b → Joined widths others a b)
    {a b : Nat} (joined : Joined widths requests a b)
    : Joined widths others a b := by
  refine (Relation.EqvGen.is_equivalence _).eqvGen_iff.1 (joined.mono ?_)
  rintro a b ⟨request, member, joins⟩
  exact each request member a b joins

/-- Requests whose ties others bring about connect no more bits than the others. -/
theorem connected_of_ties {others : List Request}
    (each : ∀ request ∈ requests, ∀ a b, request.Ties widths a b → Connected widths others a b)
    {a b : WireBit} (connected : Connected widths requests a b)
    : Connected widths others a b := by
  refine (Relation.EqvGen.is_equivalence _).eqvGen_iff.1 (connected.mono ?_)
  rintro a b ⟨request, member, ties⟩
  exact each request member a b ties

/-- The table is a function of the connectivity: calls that generate the same equivalences on wires
and on wire bits freeze to one table, whose nets are numbered by their least wires and whose
canonical points outrank all other places of their classes.
-/
theorem freeze_connect_determined (scope : String) {widths : List Nat}
    {requests others : List Request}
    (sameWires : ∀ a b, Joined widths requests a b ↔ Joined widths others a b)
    (sameBits : ∀ a b, Connected widths requests a b ↔ Connected widths others a b)
    : (connect scope widths requests).freeze = (connect scope widths others).freeze
      ∧ (connect scope widths requests).freeze.NumbersNets widths (Joined widths requests)
      ∧ (connect scope widths requests).freeze.ChoosesPoints widths
          (Connected widths requests) := by
  obtain ⟨joins, splices, first⟩ := connect_answers scope widths requests
  obtain ⟨moreJoins, moreSplices, second⟩ := connect_answers scope widths others
  rw [first.joined_eq, second.joined_eq] at sameWires
  rw [first.connected_eq, second.connected_eq] at sameBits
  have scopes : (connect scope widths requests).scope = (connect scope widths others).scope := by
    rw [scope_connect, scope_connect]
  refine ⟨first.collected.freeze_eq second.collected scopes sameWires sameBits, ?_, ?_⟩
  · rw [first.joined_eq]
    exact first.collected.numbersNets
  · rw [first.connected_eq]
    exact first.collected.choosesPoints

/-- Two ways to connect four wires: the splice comes before the join or after it and names the other
of the joined wires, and two further calls fail.
-/
theorem freeze_connect_reordered
    : (connect "main" [2, 2, 2, 1] [.join 0 1, .splice ⟨1, 1⟩ ⟨3, 0⟩]).freeze
        = (connect "main" [2, 2, 2, 1]
            [.splice ⟨3, 0⟩ ⟨0, 1⟩, .join 2 3, .join 0 1, .splice ⟨2, 5⟩ ⟨0, 0⟩]).freeze
      ∧ (connect "main" [2, 2, 2, 1] [.join 0 1, .splice ⟨1, 1⟩ ⟨3, 0⟩]).freeze.NumbersNets
          [2, 2, 2, 1] (Joined [2, 2, 2, 1] [.join 0 1, .splice ⟨1, 1⟩ ⟨3, 0⟩])
      ∧ (connect "main" [2, 2, 2, 1] [.join 0 1, .splice ⟨1, 1⟩ ⟨3, 0⟩]).freeze.ChoosesPoints
          [2, 2, 2, 1] (Connected [2, 2, 2, 1] [.join 0 1, .splice ⟨1, 1⟩ ⟨3, 0⟩]) := by
  have aligned (requests : List Request) (member : .join 0 1 ∈ requests)
      : Connected [2, 2, 2, 1] requests ⟨1, 1⟩ ⟨0, 1⟩ :=
    .symm _ _ (.rel _ _ ⟨_, member, .join rfl rfl Nat.one_lt_two⟩)
  have unequal (a b : Nat) : ¬ (Request.join 2 3).Joins [2, 2, 2, 1] a b := by
    rintro ⟨first, second⟩
    cases first.trans second.symm
  have untied (a b : WireBit) : ¬ (Request.join 2 3).Ties [2, 2, 2, 1] a b := by
    rintro ⟨first, second, -⟩
    cases first.trans second.symm
  have outside (a b : WireBit) : ¬ (Request.splice ⟨2, 5⟩ ⟨0, 0⟩).Ties [2, 2, 2, 1] a b := by
    intro ties
    cases ties with
    | splice first second =>
        obtain ⟨width, found, lower⟩ := first
        obtain rfl := Option.some.inj found
        exact absurd lower (by decide)
  apply freeze_connect_determined
  · intro a b
    constructor
    · refine joined_of_joins fun request member a b joins => ?_
      simp only [List.mem_cons, List.not_mem_nil, or_false] at member
      rcases member with rfl | rfl
      · exact .rel _ _ ⟨_, by simp, joins⟩
      · cases joins
    · refine joined_of_joins fun request member a b joins => ?_
      simp only [List.mem_cons, List.not_mem_nil, or_false] at member
      rcases member with rfl | rfl | rfl | rfl
      · cases joins
      · exact absurd joins (unequal a b)
      · exact .rel _ _ ⟨_, by simp, joins⟩
      · cases joins
  · intro a b
    constructor
    · refine connected_of_ties fun request member a b ties => ?_
      simp only [List.mem_cons, List.not_mem_nil, or_false] at member
      rcases member with rfl | rfl
      · exact .rel _ _ ⟨_, by simp, ties⟩
      · cases ties with
        | splice first second =>
            refine .trans _ _ _ (aligned _ (by simp)) (.symm _ _ (.rel _ _ ?_))
            exact ⟨.splice ⟨3, 0⟩ ⟨0, 1⟩, by simp, .splice second ⟨2, rfl, by decide⟩⟩
    · refine connected_of_ties fun request member a b ties => ?_
      simp only [List.mem_cons, List.not_mem_nil, or_false] at member
      rcases member with rfl | rfl | rfl | rfl
      · cases ties with
        | splice first second =>
            refine .trans _ _ _ (.symm _ _ (.rel _ _ ?_)) (aligned _ (by simp))
            exact ⟨.splice ⟨1, 1⟩ ⟨3, 0⟩, by simp, .splice ⟨2, rfl, by decide⟩ first⟩
      · exact absurd ties (untied a b)
      · exact .rel _ _ ⟨_, by simp, ties⟩
      · exact absurd ties (outside a b)

end Draft

end SchematicHdl.Net
