import Mathlib.Algebra.GroupWithZero.Nat
import SchematicHdl.Proofs.Netlist.Inventory

/-! Packing of the bubble busses. A circuit asks for its own unconnected pins and for the bubbles of
the circuits that it instantiates, and the count of a bus is what is asked for, as words add it up.
If that is a word, the ranges are packed: the pins reserve theirs first and the instances behind
them, so the ranges on a bus follow each other without a gap and the last one ends where the bus
ends.
-/

namespace SchematicHdl

open Outcome

-----------------------------------------------------------------------------------------
-- Ranges
-----------------------------------------------------------------------------------------

namespace BubbleRange

def Contains (range : BubbleRange) (index : Nat) : Prop :=
  range.first ≤ index ∧ index ≤ range.last

instance (range : BubbleRange) (index : Nat) : Decidable (range.Contains index) :=
  inferInstanceAs (Decidable (_ ∧ _))

def Disjoint (range other : BubbleRange) : Prop :=
  ∀ index, range.Contains index → ¬ other.Contains index

theorem Disjoint.symm {range other : BubbleRange} (disjoint : range.Disjoint other)
    : other.Disjoint range :=
  fun index inside outside => disjoint index outside inside

/-- Ranges that follow each other without a gap, from one index up to another. -/
inductive Consecutive : Nat → List BubbleRange → Nat → Prop
  | nil (start : Nat) : Consecutive start [] start
  | cons {range : BubbleRange} {ranges : List BubbleRange} {stop : Nat}
    (nonempty : range.first ≤ range.last) (rest : Consecutive (range.last + 1) ranges stop)
    : Consecutive range.first (range :: ranges) stop

namespace Consecutive

variable {start middle stop : Nat} {ranges others : List BubbleRange}

theorem append (front : Consecutive start ranges middle) (back : Consecutive middle others stop)
    : Consecutive start (ranges ++ others) stop := by
  induction front with
  | nil => exact back
  | cons nonempty _ ih => exact .cons nonempty (ih back)

theorem le (consecutive : Consecutive start ranges stop) : start ≤ stop := by
  induction consecutive with
  | nil => exact Nat.le_refl _
  | cons nonempty _ ih => omega

/-- Each index from the first to the last is contained once, all others not at all. -/
theorem countP_contains (consecutive : Consecutive start ranges stop) (index : Nat)
    : ranges.countP (fun range => decide (range.Contains index))
      = if start ≤ index ∧ index < stop then 1 else 0 := by
  induction consecutive with
  | nil => simp
  | @cons range _ _ nonempty rest ih =>
      have later := rest.le
      simp only [List.countP_cons, ih, decide_eq_true_eq]
      by_cases here : range.Contains index
      · obtain ⟨lower, upper⟩ := here
        rw [if_neg (by omega), if_pos ⟨lower, upper⟩, if_pos (by omega)]
      · rw [if_neg here, Nat.add_zero]
        unfold Contains at here
        exact if_congr (by omega) rfl rfl

theorem first_ge (consecutive : Consecutive start ranges stop) {range : BubbleRange}
    (member : range ∈ ranges)
    : start ≤ range.first := by
  induction consecutive with
  | nil => cases member
  | cons nonempty _ ih =>
      rcases List.mem_cons.mp member with rfl | later
      · exact Nat.le_refl _
      · have := ih later
        omega

theorem bounds (consecutive : Consecutive start ranges stop) {range : BubbleRange}
    (member : range ∈ ranges)
    : range.first ≤ range.last ∧ range.last < stop := by
  induction consecutive with
  | nil => cases member
  | cons nonempty rest ih =>
      rcases List.mem_cons.mp member with rfl | later
      · exact ⟨nonempty, rest.le⟩
      · exact ih later

theorem pairwise_disjoint (consecutive : Consecutive start ranges stop)
    : ranges.Pairwise Disjoint := by
  induction consecutive with
  | nil => exact .nil
  | cons _ rest ih =>
      refine .cons (fun other member index inside within => ?_) ih
      have behind := rest.first_ge member
      have upper := inside.2
      have lower := within.1
      omega

end Consecutive

/-- Ranges that fill a bus: in some order, they follow each other from its first index to its
last.
-/
def Fill (ranges : List BubbleRange) (count : Nat) : Prop :=
  ∃ order, order.Perm ranges ∧ Consecutive 0 order count

namespace Fill

variable {ranges : List BubbleRange} {count : Nat}

theorem countP_contains (fill : Fill ranges count) (index : Nat)
    : ranges.countP (fun range => decide (range.Contains index))
      = if index < count then 1 else 0 := by
  obtain ⟨order, perm, consecutive⟩ := fill
  rw [← perm.countP_eq, consecutive.countP_contains]
  simp

theorem bounds (fill : Fill ranges count) {range : BubbleRange} (member : range ∈ ranges)
    : range.first ≤ range.last ∧ range.last < count := by
  obtain ⟨order, perm, consecutive⟩ := fill
  exact consecutive.bounds (perm.mem_iff.mpr member)

theorem pairwise_disjoint (fill : Fill ranges count) : ranges.Pairwise Disjoint := by
  obtain ⟨order, perm, consecutive⟩ := fill
  exact (perm.pairwise_iff Disjoint.symm).mp consecutive.pairwise_disjoint

theorem contains_iff (fill : Fill ranges count) {index : Nat}
    : index < count ↔ ∃ range ∈ ranges, range.Contains index := by
  have positive :=
    List.countP_pos_iff (l := ranges) (p := fun range => decide (range.Contains index))
  rw [fill.countP_contains index] at positive
  simp only [decide_eq_true_eq] at positive
  rw [← positive]
  split <;> omega

end Fill

end BubbleRange

open BubbleRange (Consecutive Fill)

-----------------------------------------------------------------------------------------
-- Sums along lists
-----------------------------------------------------------------------------------------

section Sums

variable {α β : Type}

theorem sum_map_filter (xs : List α) (p : α → Bool) (f : α → Nat)
    : ((xs.filter p).map f).sum = (xs.map (fun x => if p x then f x else 0)).sum := by
  induction xs with
  | nil => rfl
  | cons x rest ih =>
      rw [List.filter_cons]
      split <;> simp_all

theorem sum_map_filterMap (xs : List α) (g : α → Option β) (f : β → Nat)
    : ((xs.filterMap g).map f).sum = (xs.map (fun x => (g x).elim 0 f)).sum := by
  induction xs with
  | nil => rfl
  | cons x rest ih =>
      rw [List.filterMap_cons]
      split <;> simp_all

/-- What is the same item by item is the same in all, by induction on the pairing. -/
theorem sum_map_eq {xs : List α} {ys : List β} {f : α → Nat} {g : β → Nat}
    (same : List.Forall₂ (fun x y => g y = f x) xs ys)
    : (xs.map f).sum = (ys.map g).sum := by
  induction same with
  | nil => rfl
  | cons head _ ih => simp [head, ih]

theorem sum_map_add (xs : List α) (f g : α → Nat)
    : (xs.map f).sum + (xs.map g).sum = (xs.map (fun x => f x + g x)).sum := by
  induction xs with
  | nil => rfl
  | cons x rest ih =>
      simp only [List.map_cons, List.sum_cons, ← ih]
      omega

end Sums

-----------------------------------------------------------------------------------------
-- Reservations
-----------------------------------------------------------------------------------------

/-- Some bubbles are asked for on a bus, on which some are reserved already: the count goes up as
words add, and if it stays a word, the new ranges go on where the bus ended and end where it ends
now.
-/
structure Packs [Arithmetic] (start request stop : Nat) (ranges : List BubbleRange) : Prop where
  total : start < Word.size → stop = (start + request) % Word.size
  fits : start < Word.size → Arithmetic.checksOverflow = true → start + request < Word.size
  packed : start + request < Word.size → Consecutive start ranges stop

namespace Packs

variable [Arithmetic] {start request middle other stop : Nat} {ranges others : List BubbleRange}

theorem refl (start : Nat) : Packs start 0 start [] :=
  ⟨fun word => (Nat.mod_eq_of_lt word).symm, fun word _ => word, fun _ => .nil start⟩

theorem trans (first : Packs start request middle ranges) (second : Packs middle other stop others)
    : Packs start (request + other) stop (ranges ++ others) := by
  have word (inside : start < Word.size) : middle < Word.size := by
    rw [first.total inside]
    exact Nat.mod_lt _ Word.size_pos
  refine ⟨fun inside => ?_, fun inside checks => ?_, fun fits => ?_⟩
  · rw [second.total (word inside), first.total inside, Nat.mod_add_mod, Nat.add_assoc]
  · have later := second.fits (word inside) checks
    rwa [first.total inside, Nat.mod_eq_of_lt (first.fits inside checks), Nat.add_assoc] at later
  · rw [← Nat.add_assoc] at fits
    have front := Nat.lt_of_le_of_lt (Nat.le_add_right _ other) fits
    have here := first.total (Nat.lt_of_le_of_lt (Nat.le_add_right _ request) front)
    rw [Nat.mod_eq_of_lt front] at here
    exact (first.packed front).append (second.packed (here ▸ fits))

/-- What does not fit on a bus is asked for, if the bus is counted exactly. -/
theorem overflows {more : Nat} (packs : Packs 0 request stop ranges)
    (checks : Arithmetic.checksOverflow = true) (excess : Word.size ≤ stop + more)
    : Word.size ≤ request + more := by
  have total := packs.total Word.size_pos
  have fits := packs.fits Word.size_pos checks
  rw [Nat.zero_add] at total fits
  rwa [total, Nat.mod_eq_of_lt fits] at excess

/-- Steps that pack their ranges one after the other pack them all, by induction on the steps. -/
theorem of_threaded {α β σ : Type} (count : σ → Nat) (asked : α → Nat)
    (held : β → List BubbleRange) {step : α → σ → β → σ → Prop} {xs : List α} {ys : List β}
    {s s' : σ} (threaded : Outcome.Threaded step xs s ys s')
    (each
      : ∀ x s y s',
          x ∈ xs → step x s y s' → Packs (count s) (asked x) (count s') (held y))
    : Packs (count s) (xs.map asked).sum (count s') (ys.flatMap held) := by
  induction threaded with
  | nil => exact .refl _
  | cons head _ ih =>
      refine (each _ _ _ _ List.mem_cons_self head).trans (ih fun x s y s' member => ?_)
      exact each x s y s' (List.mem_cons_of_mem _ member)

end Packs

namespace BubbleAllocation

variable [Arithmetic] {allocation after : BubbleAllocation}

theorem allocate_packs {bus : Direction} {count : Nat} {range : Option BubbleRange}
    (h : allocation.allocate bus count = .ok (after, range))
    : Packs (allocation.counts.get bus) count (after.counts.get bus) range.toList := by
  obtain ⟨-, ⟨rfl, rfl, rfl⟩ | ⟨positive, fits, rfl, rfl⟩⟩ := allocate_eq_ok.1 h
  · exact .refl _
  · rw [PerBus.get_set, if_pos rfl]
    generalize allocation.counts.get bus = first at fits
    refine ⟨fun _ => rfl, fun _ => fits, fun fits => ?_⟩
    rw [Nat.mod_eq_of_lt fits, Nat.mod_eq_of_lt (Nat.lt_of_le_of_lt (Nat.sub_le _ _) fits)]
    have nonempty : BubbleRange.first ⟨first, first + count - 1⟩ ≤ first + count - 1 := by
      simp only
      omega
    have packs := Consecutive.cons nonempty (.nil (first + count - 1 + 1))
    simp only at packs
    rwa [Nat.sub_add_cancel (Nat.add_pos_right _ positive)] at packs

theorem allocateAll_packs {counts : BubbleCounts} {ranges : BubbleRanges}
    (h : allocation.allocateAll counts = .ok (after, ranges)) (bus : Direction)
    : Packs (allocation.counts.get bus) (counts.get bus) (after.counts.get bus)
        (ranges.get bus).toList := by
  simp only [allocateAll, bind_eq_ok, pure_eq_ok, Prod.exists, Prod.mk.injEq] at h
  obtain ⟨first, input, hInput, second, output, hOutput, third, inout, hInout, rfl, rfl⟩ := h
  cases bus with
  | input =>
      rw [allocate_keeps hInout (by decide), allocate_keeps hOutput (by decide)]
      exact allocate_packs hInput
  | output =>
      rw [allocate_keeps hInout (by decide), ← allocate_keeps hInput (by decide)]
      exact allocate_packs hOutput
  | inout =>
      rw [← allocate_keeps hInput (by decide), ← allocate_keeps hOutput (by decide)]
      exact allocate_packs hInout

end BubbleAllocation

-----------------------------------------------------------------------------------------
-- What a netlist asks for
-----------------------------------------------------------------------------------------

namespace Netlist

/-- A boundary pin of a direction that nothing is connected to. -/
def isLoosePin (bus : Direction) (part : Part) : Bool :=
  part.category = .pin bus && !part.isConnected

/-- The netlist of the circuit that a part is an instance of. -/
def instantiated? (netlists : List Netlist) (part : Part) : Option Netlist :=
  part.component.target?.bind (ofCircuit? netlists)

/-- What a part asks for on a bus for itself. -/
def looseWidth (bus : Direction) (part : Part) : Nat :=
  if isLoosePin bus part then part.component.attributes.width else 0

/-- What a part asks for on a bus for the circuit that it is an instance of. -/
def innerBubbles (netlists : List Netlist) (bus : Direction) (part : Part) : Nat :=
  (instantiated? netlists part).elim 0 (fun child => child.bubbles.get bus)

/-- The number of bubbles that a netlist asks for on a bus: the widths of its own unconnected pins,
and the bubbles of the circuits that it instantiates, once for each instance.
-/
def bubbleDemand (netlists : List Netlist) (netlist : Netlist) (bus : Direction) : Nat :=
  ((netlist.parts.filter (isLoosePin bus)).map (fun part => part.component.attributes.width)).sum
  + ((netlist.parts.filterMap (instantiated? netlists)).map
      (fun child => child.bubbles.get bus)).sum

/-- A circuit asks for no more bubbles on any bus than a word counts. -/
def BubblesFit (netlists : List Netlist) (netlist : Netlist) : Prop :=
  ∀ bus, bubbleDemand netlists netlist bus < Word.size

theorem bubblesFit_iff {netlists : List Netlist} {netlist : Netlist}
    : BubblesFit netlists netlist
      ↔ bubbleDemand netlists netlist .input < Word.size
        ∧ bubbleDemand netlists netlist .output < Word.size
        ∧ bubbleDemand netlists netlist .inout < Word.size :=
  ⟨fun fit => ⟨fit .input, fit .output, fit .inout⟩,
    fun ⟨input, output, inout⟩ bus => by cases bus <;> assumption⟩

instance (netlists : List Netlist) (netlist : Netlist) : Decidable (BubblesFit netlists netlist) :=
  decidable_of_iff _ bubblesFit_iff.symm

theorem bubbleDemand_eq (netlists : List Netlist) (netlist : Netlist) (bus : Direction)
    : bubbleDemand netlists netlist bus
      = (netlist.parts.map (looseWidth bus)).sum
        + (netlist.parts.map (innerBubbles netlists bus)).sum := by
  rw [bubbleDemand, sum_map_filter, sum_map_filterMap]
  rfl

/-- Two versions of a part ask for the same. -/
theorem SameEnds.looseWidth_eq {before after : Part} (same : SameEnds before after)
    (bus : Direction)
    : looseWidth bus after = looseWidth bus before := by
  unfold looseWidth isLoosePin Part.category Part.isConnected
  rw [same.1, same.2]

theorem SameEnds.innerBubbles_eq {before after : Part} (same : SameEnds before after)
    (netlists : List Netlist) (bus : Direction)
    : innerBubbles netlists bus after = innerBubbles netlists bus before := by
  simp only [innerBubbles, instantiated?, same.1]

variable {library : Library} {circuit : Circuit} {children : List Netlist}
  {registry : ClockRegistry} {analyzed : Analyzed}

-----------------------------------------------------------------------------------------
-- The two passes over the parts
-----------------------------------------------------------------------------------------

/-- The ranges that parts hold on a bus. -/
def rangesOf (parts : List Part) (bus : Direction) : List BubbleRange :=
  parts.filterMap (fun part => part.bubbles.get bus)

/-- A pin has one end, as wide as the pin. -/
def PinShaped (part : Part) : Prop :=
  ∀ direction,
    part.component.kind = .pin direction
    → ∃ resolved, part.ends = [resolved] ∧ resolved.width = part.component.attributes.width

theorem ResolvesPart.pinShaped {nets : Net.Table} {component : Component} {part : Part}
    (resolves : ResolvesPart library circuit nets component part)
    : PinShaped part := by
  intro direction kind
  have component_eq := resolves.component_eq
  have shapes : library.ends component = [Library.pinEnd direction component.attributes.width] := by
    rw [Library.ends, ← component_eq, kind]
  have one : part.ends.length = 1 := by rw [resolves.length_eq, shapes, List.length_singleton]
  obtain ⟨resolved, ends⟩ := List.length_eq_one_iff.mp one
  have resolves := resolves.ends 0 _ resolved (by rw [shapes]; rfl) (by rw [ends]; rfl)
  refine ⟨resolved, ends, ?_⟩
  rw [resolves.width_eq, component_eq]
  cases direction <;> rfl

/-- What is no pin asks for nothing for itself. -/
theorem looseWidth_of_notPin {part : Part} (notPin : part.isPin = false) (bus : Direction)
    : looseWidth bus part = 0 := by
  have differs : part.category ≠ .pin bus := fun category => by
    simp [isPin_of_category category] at notPin
  simp [looseWidth, isLoosePin, differs]

/-- What a pin asks for, by what is connected to it. -/
theorem looseWidth_of_kind {part : Part} {direction : Direction} {resolved : ResolvedEnd}
    (kind : part.component.kind = .pin direction) (ends : part.ends = [resolved])
    (width : resolved.width = part.component.attributes.width) (bus : Direction)
    : looseWidth bus part
      = if bus = direction ∧ resolved.isUnconnected = true then resolved.width else 0 := by
  have category : part.category = .pin direction := by
    rw [Part.category, Component.category, kind]
  simp only [looseWidth, isLoosePin, category, Part.isConnected, ends, List.any_cons, List.any_nil,
    Bool.or_false, Bool.not_not, Category.pin.injEq, Bool.and_eq_true, decide_eq_true_eq, width,
    eq_comm (a := direction)]

/-- Binding a part packs its range, by cases on what becomes of the part. -/
theorem Binds.packs [Arithmetic] {part after : Part} {s s' : Boundary}
    (binds : Binds circuit part s after s') (shaped : PinShaped part) (unbound : Unbound part)
    (bus : Direction)
    : Packs (s.allocation.counts.get bus) (looseWidth bus part) (s'.allocation.counts.get bus)
        (after.bubbles.get bus).toList := by
  have none : part.bubbles.get bus = none := by rw [unbound.1, BubbleRanges.get_none]
  cases binds with
  | other notPin =>
      rw [looseWidth_of_notPin notPin, none]
      exact .refl _
  | endless empty =>
      have notPin : part.isPin = false := by
        refine Bool.eq_false_iff.mpr fun pin => ?_
        obtain ⟨direction, kind⟩ := Component.exists_kind_of_isPin pin
        obtain ⟨resolved, ends, -⟩ := shaped direction kind
        simp [empty] at ends
      rw [looseWidth_of_notPin notPin, none]
      exact .refl _
  | @bubble direction resolved rest allocation range kind ends unconnected allocated =>
      obtain ⟨only, sole, width⟩ := shaped direction kind
      obtain ⟨rfl, rfl⟩ := List.cons.inj (ends.symm.trans sole)
      rw [looseWidth_of_kind kind ends width]
      simp only [PerBus.get_set]
      by_cases same : bus = direction
      · rw [if_pos ⟨same, unconnected⟩, if_pos same, same]
        exact BubbleAllocation.allocate_packs allocated
      · rw [if_neg fun here => same here.1, if_neg same, none,
          BubbleAllocation.allocate_keeps allocated same]
        exact .refl _
  | @named direction resolved rest kind ends connected fresh =>
      obtain ⟨only, sole, width⟩ := shaped direction kind
      obtain ⟨rfl, rfl⟩ := List.cons.inj (ends.symm.trans sole)
      rw [looseWidth_of_kind kind ends width, if_neg fun here => by simp [connected] at here, none]
      exact .refl _

/-- Taking in a part packs its ranges, those that a pin has got already apart; by cases on what the
part is.
-/
theorem TakesIn.packs [Arithmetic] {part after : Part} {s s' : Inventory}
    (takesIn : TakesIn circuit children part s after s') (bus : Direction)
    (none : part.isPin = false → part.bubbles = .none)
    : Packs (s.allocation.counts.get bus) (innerBubbles children bus part)
        (s'.allocation.counts.get bus)
        (if after.isPin then [] else (after.bubbles.get bus).toList) := by
  cases takesIn with
  | other notInstance =>
      rw [innerBubbles, instantiated?, Component.target?_eq_none notInstance]
      split
      · exact .refl _
      · next notPin =>
          rw [none (by simpa using notPin), BubbleRanges.get_none]
          exact .refl _
  | @subcircuit target child allocation bubbles kind analyzed allocated =>
      have here : innerBubbles children bus part = child.bubbles.get bus := by
        rw [innerBubbles, instantiated?, Component.target?, kind]
        simp [analyzed]
      rw [here, if_neg (by simp [Part.isPin, Component.isPin, kind])]
      exact BubbleAllocation.allocateAll_packs allocated bus
  | clock kind =>
      have notPin : part.isPin = false := by simp [Part.isPin, Component.isPin, kind]
      rw [innerBubbles, instantiated?, Component.target?, kind, none notPin, BubbleRanges.get_none]
      exact ite_self (c := _) _ ▸ .refl _

/-- Taking in the parts keeps the pins, by induction on the parts. -/
theorem filter_pins_eq {parts taken : List Part}
    (kept
      : List.Forall₂
          (fun part after => SameEnds part after ∧ (part.isPin = true → after = part))
          parts taken)
    : taken.filter Part.isPin = parts.filter Part.isPin := by
  induction kept with
  | nil => rfl
  | @cons part after _ _ head _ ih =>
      have kind : after.isPin = part.isPin := by rw [Part.isPin, head.1.1, Part.isPin]
      rw [List.filter_cons, List.filter_cons, kind, ih]
      split
      · next pin => rw [head.2 pin]
      · rfl

/-- Resolved pins have one end, and nothing else is known of a resolved part. -/
theorem shaped_of_resolves {nets : Net.Table} {components : List Component} {resolved : List Part}
    (resolves
      : List.Forall₂
          (fun component part => ResolvesPart library circuit nets component part ∧ Unbound part)
          components resolved)
    : ∀ part ∈ resolved, PinShaped part ∧ Unbound part := by
  intro part member
  obtain ⟨_, -, resolves⟩ := forall₂_mem_right resolves member
  exact ⟨resolves.1.pinShaped, resolves.2⟩

/-- What is no pin holds nothing when the pins are bound. -/
theorem bubbles_none_of_bounds {resolved bound : List Part}
    (bounds : List.Forall₂ Bound resolved bound)
    (shaped : ∀ part ∈ resolved, PinShaped part ∧ Unbound part)
    : ∀ part ∈ bound, part.isPin = false → part.bubbles = .none := by
  intro part member notPin
  obtain ⟨before, listed, bound⟩ := forall₂_mem_right bounds member
  have same : before.isPin = part.isPin := by rw [Part.isPin, ← bound.same.1, Part.isPin]
  rw [bound.notPin (same.trans notPin)]
  exact (shaped before listed).2.1

section Passes

variable [Arithmetic] {parts after : List Part}

/-- The pins pack their ranges from the start of a bus. -/
theorem packs_of_binds {boundary : Boundary}
    (binds : Threaded (Binds circuit) parts ⟨.start circuit.name, []⟩ after boundary)
    (shaped : ∀ part ∈ parts, PinShaped part ∧ Unbound part) (bus : Direction)
    : Packs 0 (parts.map (looseWidth bus)).sum (boundary.allocation.counts.get bus)
        (after.flatMap (fun part => (part.bubbles.get bus).toList)) := by
  have packs :=
    Packs.of_threaded (fun s => s.allocation.counts.get bus) (looseWidth bus)
      (fun part => (part.bubbles.get bus).toList) binds
      fun part s after s' member binds =>
        binds.packs (shaped part member).1 (shaped part member).2 bus
  have start : PerBus.get (BubbleAllocation.start circuit.name).counts bus = 0 := by
    cases bus <;> rfl
  rwa [start] at packs

/-- The instances pack their ranges behind what is on a bus already. -/
theorem packs_of_takes {s s' : Inventory}
    (takes : Threaded (TakesIn circuit children) parts s after s')
    (none : ∀ part ∈ parts, part.isPin = false → part.bubbles = .none) (bus : Direction)
    : Packs (s.allocation.counts.get bus) (parts.map (innerBubbles children bus)).sum
        (s'.allocation.counts.get bus)
        (after.flatMap
          (fun part => if part.isPin then [] else (part.bubbles.get bus).toList)) :=
  Packs.of_threaded (fun s => s.allocation.counts.get bus) (innerBubbles children bus)
    (fun part => if part.isPin then [] else (part.bubbles.get bus).toList) takes
    fun part _ _ _ member takes => takes.packs bus (none part member)

end Passes

namespace Stages

/-- The ranges of an analyzed netlist are packed on its bubble busses, in some order: what is no pin
holds nothing before the second pass, so the first pass packs the pins alone.
-/
theorem packs [Arithmetic] (stages : Stages library circuit children registry analyzed)
    (bus : Direction)
    : ∃ order,
        order.Perm (rangesOf analyzed.netlist.parts bus)
        ∧ Packs 0 (bubbleDemand children analyzed.netlist bus)
            (analyzed.netlist.bubbles.get bus) order := by
  have shaped := shaped_of_resolves stages.resolves
  have none := bubbles_none_of_bounds stages.bounds shaped
  have front := packs_of_binds stages.binds shaped bus
  have back := packs_of_takes stages.takes none bus
  have loose
      : (stages.resolved.map (looseWidth bus)).sum = (stages.parts.map (looseWidth bus)).sum :=
    sum_map_eq (stages.settles.imp fun _ _ ⟨_, bound, took⟩ =>
      (took.same.looseWidth_eq bus).trans (bound.same.looseWidth_eq bus))
  have inner
      : (stages.bound.map (innerBubbles children bus)).sum
        = (stages.parts.map (innerBubbles children bus)).sum :=
    sum_map_eq (stages.tooks.imp fun _ _ took => took.same.innerBubbles_eq children bus)
  have pins : stages.parts.filter Part.isPin = stages.bound.filter Part.isPin :=
    filter_pins_eq (stages.tooks.imp fun _ _ took => ⟨took.same, took.pin⟩)
  have packs := front.trans back
  simp only [loose, inner] at packs
  rw [stages.netlist_eq, bubbleDemand_eq]
  refine ⟨_, ?_, packs⟩
  have pinRanges
      : stages.bound.flatMap (fun part => (part.bubbles.get bus).toList)
        = rangesOf (stages.parts.filter Part.isPin) bus := by
    rw [pins, rangesOf, List.filterMap_filter, ← List.filterMap_eq_flatMap_toList]
    refine (List.filterMap_congr fun part member => ?_).symm
    split
    · rfl
    · next notPin => rw [none part member (by simpa using notPin), BubbleRanges.get_none]
  have otherRanges
      : stages.parts.flatMap
          (fun part => if part.isPin then [] else (part.bubbles.get bus).toList)
        = rangesOf (stages.parts.filter (fun part => !part.isPin)) bus := by
    rw [rangesOf, List.filterMap_filter, List.filterMap_eq_flatMap_toList]
    refine List.flatMap_congr fun part _ => ?_
    cases part.isPin <;> rfl
  rw [pinRanges, otherRanges, rangesOf, rangesOf, ← List.filterMap_append]
  exact (List.filter_append_perm _ _).filterMap _

/-- The count of a bus is what is asked for, as words add it up, and a build with overflow checks
has added it up exactly.
-/
theorem bubbles_eq [Arithmetic] (stages : Stages library circuit children registry analyzed)
    (bus : Direction)
    : analyzed.netlist.bubbles.get bus
        = bubbleDemand children analyzed.netlist bus % Word.size
      ∧ (Arithmetic.checksOverflow = true
        → bubbleDemand children analyzed.netlist bus < Word.size) := by
  obtain ⟨_, -, reserved⟩ := stages.packs bus
  have total := reserved.total Word.size_pos
  have fits := reserved.fits Word.size_pos
  rw [Nat.zero_add] at total fits
  exact ⟨total, fits⟩

/-- The ranges of an analyzed netlist fill its bubble busses if the circuit asks for no more bubbles
than a word counts.
-/
theorem fill [Arithmetic] (stages : Stages library circuit children registry analyzed)
    {bus : Direction} (fits : bubbleDemand children analyzed.netlist bus < Word.size)
    : Fill (rangesOf analyzed.netlist.parts bus) (analyzed.netlist.bubbles.get bus) := by
  obtain ⟨order, perm, reserved⟩ := stages.packs bus
  exact ⟨order, perm, reserved.packed (by rwa [Nat.zero_add])⟩

end Stages

end Netlist

end SchematicHdl
