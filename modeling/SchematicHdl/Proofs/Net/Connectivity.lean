import SchematicHdl.Net.Draft
import SchematicHdl.Proofs.Net.Partition

/-! Connectivity of wire bits. The two partitions of a draft stand for the joined wires and for the
tied wire bits, whatever joins and splices were collected and in whatever order. Connected wires of
a net carry connected bits, place by place.
-/

namespace SchematicHdl.Net

-----------------------------------------------------------------------------------------
-- Wire bits and their numbers
-----------------------------------------------------------------------------------------

/-- The bit belongs to one of the wires. -/
def HasBit (widths : List Nat) (bit : WireBit) : Prop :=
  ∃ width, widths[bit.wire]? = some width ∧ bit.bit < width

/-- The number of a wire bit among the bits of all wires. -/
def bitIndex (widths : List Nat) (bit : WireBit) : Nat :=
  bitsBefore widths bit.wire + bit.bit

theorem bitIndex_lt {widths : List Nat} {bit : WireBit} (has : HasBit widths bit)
    : bitIndex widths bit < totalBits widths := by
  obtain ⟨wire, position⟩ := bit
  obtain ⟨width, found, lower⟩ := has
  simp only [bitIndex] at found lower ⊢
  induction widths generalizing wire with
  | nil => simp at found
  | cons head rest ih =>
      cases wire with
      | zero =>
          simp only [List.getElem?_cons_zero, Option.some.injEq] at found
          simp only [bitsBefore, totalBits]
          omega
      | succ wire =>
          have := ih wire (by simpa using found)
          simp only [bitsBefore, totalBits]
          omega

theorem bitIndex_injective {widths : List Nat} {a b : WireBit} (hasA : HasBit widths a)
    (hasB : HasBit widths b) (same : bitIndex widths a = bitIndex widths b)
    : a = b := by
  obtain ⟨wireA, bitA⟩ := a
  obtain ⟨wireB, bitB⟩ := b
  obtain ⟨widthA, foundA, lowerA⟩ := hasA
  obtain ⟨widthB, foundB, lowerB⟩ := hasB
  simp only [bitIndex] at foundA foundB lowerA lowerB same
  induction widths generalizing wireA wireB with
  | nil => simp at foundA
  | cons head rest ih =>
      cases wireA <;> cases wireB <;>
        simp only [List.getElem?_cons_zero, List.getElem?_cons_succ, Option.some.injEq,
          bitsBefore] at foundA foundB same
      case zero.zero => simp; omega
      case zero.succ => omega
      case succ.zero => omega
      case succ.succ wireA wireB =>
        have := ih wireA wireB (by omega) foundA foundB
        simp only [WireBit.mk.injEq] at this ⊢
        omega

-----------------------------------------------------------------------------------------
-- What ties two bits together
-----------------------------------------------------------------------------------------

/-- Two bits touch: by a splice, or at the same place of two joined wires. -/
inductive Tied (widths : List Nat) (joins : List (Nat × Nat))
    (splices : List (WireBit × WireBit))
    : WireBit → WireBit → Prop
  | join {a b width bit} (joined : (a, b) ∈ joins) (found : widths[a]? = some width)
    (lower : bit < width)
    : Tied widths joins splices ⟨a, bit⟩ ⟨b, bit⟩
  | splice {a b} (spliced : (a, b) ∈ splices) : Tied widths joins splices a b

theorem Tied.mono {widths : List Nat} {joins moreJoins : List (Nat × Nat)}
    {splices moreSplices : List (WireBit × WireBit)} {x y : WireBit}
    (tied : Tied widths joins splices x y) (joined : joins.Subset moreJoins)
    (spliced : splices.Subset moreSplices)
    : Tied widths moreJoins moreSplices x y := by
  cases tied with
  | join here found lower => exact .join (joined here) found lower
  | splice here => exact .splice (spliced here)

/-- What a draft has collected: its partitions stand for the joins and for the ties, and joined
wires are equally wide.
-/
structure Draft.Collected (draft : Draft) (widths : List Nat) (joins : List (Nat × Nat))
    (splices : List (WireBit × WireBit))
    : Prop where
  widths_eq : draft.widths = widths
  wires : draft.wires.Represents (· < widths.length) id (fun a b => (a, b) ∈ joins)
  bits : draft.bits.Represents (HasBit widths) (bitIndex widths) (Tied widths joins splices)
  equalWidths : ∀ a b, (a, b) ∈ joins → widths[a]? = widths[b]?

namespace Draft

variable {draft next : Draft} {widths : List Nat} {joins : List (Nat × Nat)}
  {splices : List (WireBit × WireBit)}

-----------------------------------------------------------------------------------------
-- Successful steps
-----------------------------------------------------------------------------------------

theorem widthOf_eq_ok {wire width : Nat}
    : draft.widthOf wire = .ok width ↔ draft.widths[wire]? = some width := by
  unfold widthOf
  split <;> simp_all

theorem bitNumber_eq_ok {bit : WireBit} {number : Nat}
    : draft.bitNumber bit = .ok number
      ↔ HasBit draft.widths bit ∧ number = bitIndex draft.widths bit := by
  simp only [bitNumber, bind, Except.bind]
  cases known : draft.widthOf bit.wire with
  | error error =>
      have absent : ¬ HasBit draft.widths bit := by
        rintro ⟨width, found, _⟩
        rw [widthOf_eq_ok.2 found] at known
        cases known
      simp [absent]
  | ok width =>
      have found := widthOf_eq_ok.1 known
      by_cases beyond : width ≤ bit.bit
      · have absent : ¬ HasBit draft.widths bit := by
          rintro ⟨other, same, lower⟩
          have : width = other := Option.some.inj (found.symm.trans same)
          omega
        simp [beyond, absent]
      · have has : HasBit draft.widths bit := ⟨width, found, Nat.lt_of_not_le beyond⟩
        simp [beyond, has, bitIndex, offset, eq_comm]

theorem splice_eq_ok {a b : WireBit}
    : draft.splice a b = .ok next
      ↔ HasBit draft.widths a
        ∧ HasBit draft.widths b
        ∧ next
          = {
              draft with
                bits := draft.bits.union (bitIndex draft.widths a) (bitIndex draft.widths b)
            } := by
  simp only [splice, bind, Except.bind, pure, Except.pure]
  cases first : draft.bitNumber a with
  | error error =>
      have absent : ¬ HasBit draft.widths a := by
        intro has
        rw [bitNumber_eq_ok.2 ⟨has, rfl⟩] at first
        cases first
      simp [absent]
  | ok first =>
      obtain ⟨hasA, rfl⟩ := bitNumber_eq_ok.1 first
      cases second : draft.bitNumber b with
      | error error =>
          have absent : ¬ HasBit draft.widths b := by
            intro has
            rw [bitNumber_eq_ok.2 ⟨has, rfl⟩] at second
            cases second
          simp [absent]
      | ok second =>
          obtain ⟨hasB, rfl⟩ := bitNumber_eq_ok.1 second
          simp [hasA, hasB, eq_comm]

theorem join_eq_ok {a b : Nat}
    : draft.join a b = .ok next
      ↔ ∃ width,
          draft.widths[a]? = some width
          ∧ draft.widths[b]? = some width
          ∧ next
            = {
                draft with
                  wires := draft.wires.union a b,
                  bits := unionBits (draft.offset a) (draft.offset b) width draft.bits
              } := by
  simp only [join, bind, Except.bind, pure, Except.pure]
  cases first : draft.widths[a]? with
  | none =>
      cases known : draft.widthOf a with
      | error error => simp
      | ok width => simp [widthOf_eq_ok.1 known] at first
  | some width =>
      rw [widthOf_eq_ok.2 first]
      cases second : draft.widths[b]? with
      | none =>
          cases known : draft.widthOf b with
          | error error => simp
          | ok found => simp [widthOf_eq_ok.1 known] at second
      | some found =>
          rw [widthOf_eq_ok.2 second]
          by_cases same : width = found
          · subst same
            simp [eq_comm]
          · simp [same, eq_comm]

-----------------------------------------------------------------------------------------
-- Collecting joins and splices
-----------------------------------------------------------------------------------------

theorem collected_ofWidths (scope : String) (widths : List Nat)
    : (ofWidths scope widths).Collected widths [] [] where
  widths_eq := rfl
  wires :=
    (Partition.Represents.discrete widths.length (fun _ lower => lower)
      (fun _ _ _ _ same => same)).congr (by simp)
  bits :=
    (Partition.Represents.discrete (totalBits widths) (fun _ has => bitIndex_lt has)
      (fun _ _ hasA hasB same => bitIndex_injective hasA hasB same)).congr
        (fun x y => by
          constructor
          · exact False.elim
          · intro tied
            cases tied with
            | join joined => simp at joined
            | splice spliced => simp at spliced)
  equalWidths := by simp

theorem Collected.splice (collected : draft.Collected widths joins splices) {a b : WireBit}
    (h : draft.splice a b = .ok next)
    : next.Collected widths joins (splices ++ [(a, b)]) := by
  obtain ⟨hasA, hasB, rfl⟩ := splice_eq_ok.1 h
  have widthsEq := collected.widths_eq
  subst widthsEq
  refine {
    widths_eq := rfl
    wires := collected.wires
    bits := (collected.bits.union hasA hasB).congr (fun x y => ?_)
    equalWidths := collected.equalWidths
  }
  constructor
  · rintro (tied | ⟨rfl, rfl⟩)
    · exact tied.mono (fun _ joined => joined) (fun _ spliced => List.mem_append_left _ spliced)
    · exact .splice (by simp)
  · intro tied
    cases tied with
    | join joined found lower => exact Or.inl (.join joined found lower)
    | splice spliced =>
        rcases List.mem_append.mp spliced with old | new
        · exact Or.inl (.splice old)
        · exact Or.inr (by simpa using new)

/-- Uniting two wires bit by bit ties their bits place by place, by induction on the width. -/
theorem represents_unionBits {bits : Partition} {pairs : WireBit → WireBit → Prop}
    (represents : bits.Represents (HasBit widths) (bitIndex widths) pairs) {a b width : Nat}
    (foundA : widths[a]? = some width) (foundB : widths[b]? = some width) {count : Nat}
    (le : count ≤ width)
    : (unionBits (bitsBefore widths a) (bitsBefore widths b) count bits).Represents
        (HasBit widths) (bitIndex widths)
        (fun x y => pairs x y ∨ ∃ bit < count, x = ⟨a, bit⟩ ∧ y = ⟨b, bit⟩) := by
  induction count with
  | zero => exact represents.congr (by simp)
  | succ count ih =>
      have hasA : HasBit widths ⟨a, count⟩ := ⟨width, foundA, le⟩
      have hasB : HasBit widths ⟨b, count⟩ := ⟨width, foundB, le⟩
      have next := (ih (Nat.le_of_succ_le le)).union hasA hasB
      have step
          : unionBits (bitsBefore widths a) (bitsBefore widths b) (count + 1) bits
            = (unionBits (bitsBefore widths a) (bitsBefore widths b) count bits).union
                (bitIndex widths ⟨a, count⟩) (bitIndex widths ⟨b, count⟩) := by
        simp [unionBits, List.range_succ, bitIndex]
      rw [step]
      refine next.congr (fun x y => ?_)
      constructor
      · rintro ((old | ⟨bit, lower, here⟩) | here)
        · exact Or.inl old
        · exact Or.inr ⟨bit, Nat.lt_succ_of_lt lower, here⟩
        · exact Or.inr ⟨count, Nat.lt_succ_self count, here⟩
      · rintro (old | ⟨bit, lower, here⟩)
        · exact Or.inl (Or.inl old)
        · rcases Nat.lt_succ_iff_lt_or_eq.mp lower with below | rfl
          · exact Or.inl (Or.inr ⟨bit, below, here⟩)
          · exact Or.inr here

theorem Collected.join (collected : draft.Collected widths joins splices) {a b : Nat}
    (h : draft.join a b = .ok next)
    : next.Collected widths (joins ++ [(a, b)]) splices := by
  obtain ⟨width, foundA, foundB, rfl⟩ := join_eq_ok.1 h
  have widthsEq := collected.widths_eq
  subst widthsEq
  have insideA : a < draft.widths.length := (List.getElem?_eq_some_iff.mp foundA).1
  have insideB : b < draft.widths.length := (List.getElem?_eq_some_iff.mp foundB).1
  refine {
    widths_eq := rfl
    wires := (collected.wires.union insideA insideB).congr (by simp)
    bits :=
      (represents_unionBits collected.bits foundA foundB (Nat.le_refl width)).congr
        (fun x y => ?_)
    equalWidths := ?_
  }
  · constructor
    · rintro (tied | ⟨bit, lower, rfl, rfl⟩)
      · exact tied.mono (fun _ joined => List.mem_append_left _ joined) (fun _ spliced => spliced)
      · exact .join (by simp) foundA lower
    · intro tied
      cases tied with
      | join joined found lower =>
          rcases List.mem_append.mp joined with old | new
          · exact Or.inl (.join old found lower)
          · simp only [List.mem_singleton, Prod.mk.injEq] at new
            obtain ⟨rfl, rfl⟩ := new
            have same : _ = width := Option.some.inj (found.symm.trans foundA)
            exact Or.inr ⟨_, same ▸ lower, rfl, rfl⟩
      | splice spliced => exact Or.inl (.splice spliced)
  · intro x y joined
    rcases List.mem_append.mp joined with old | new
    · exact collected.equalWidths x y old
    · simp only [List.mem_singleton, Prod.mk.injEq] at new
      obtain ⟨rfl, rfl⟩ := new
      exact foundA.trans foundB.symm

/-- A run of joins collects them all, by induction on the list. -/
theorem Collected.joinAll (collected : draft.Collected widths joins splices)
    {more : List (Nat × Nat)}
    (h : more.foldlM (fun draft wires => draft.join wires.1 wires.2) draft = .ok next)
    : next.Collected widths (joins ++ more) splices := by
  induction more generalizing draft joins with
  | nil =>
      cases h
      simpa using collected
  | cons wires more ih =>
      simp only [List.foldlM_cons, bind, Except.bind] at h
      cases step : draft.join wires.1 wires.2 with
      | error error => simp [step] at h
      | ok middle =>
          rw [step] at h
          simpa using ih (collected.join step) h

/-- A run of splices collects them all, by induction on the list. -/
theorem Collected.spliceAll (collected : draft.Collected widths joins splices)
    {more : List (WireBit × WireBit)}
    (h : more.foldlM (fun draft bits => draft.splice bits.1 bits.2) draft = .ok next)
    : next.Collected widths joins (splices ++ more) := by
  induction more generalizing draft splices with
  | nil =>
      cases h
      simpa using collected
  | cons bits more ih =>
      simp only [List.foldlM_cons, bind, Except.bind] at h
      cases step : draft.splice bits.1 bits.2 with
      | error error => simp [step] at h
      | ok middle =>
          rw [step] at h
          simpa using ih (collected.splice step) h

-----------------------------------------------------------------------------------------
-- Wires of one net
-----------------------------------------------------------------------------------------

/-- Wires that a chain of joins connects are equally wide, and their bits are connected place by
place, by induction on the chain.
-/
theorem Collected.connected_of_joined (collected : draft.Collected widths joins splices)
    {a b : Nat} (chain : Relation.EqvGen (fun a b => (a, b) ∈ joins) a b)
    : widths[a]? = widths[b]?
      ∧ ∀ bit,
          HasBit widths ⟨a, bit⟩
          → Relation.EqvGen (Tied widths joins splices) ⟨a, bit⟩ ⟨b, bit⟩ := by
  induction chain with
  | rel a b joined =>
      refine ⟨collected.equalWidths a b joined, ?_⟩
      rintro bit ⟨width, found, lower⟩
      exact .rel _ _ (.join joined found lower)
  | refl a => exact ⟨rfl, fun bit _ => .refl _⟩
  | symm a b _ ih =>
      refine ⟨ih.1.symm, ?_⟩
      rintro bit ⟨width, found, lower⟩
      exact .symm _ _ (ih.2 bit ⟨width, ih.1.trans found, lower⟩)
  | trans a b c _ _ first second =>
      refine ⟨first.1.trans second.1, ?_⟩
      rintro bit ⟨width, found, lower⟩
      exact .trans _ _ _ (first.2 bit ⟨width, found, lower⟩)
        (second.2 bit ⟨width, first.1 ▸ found, lower⟩)

end Draft

end SchematicHdl.Net
