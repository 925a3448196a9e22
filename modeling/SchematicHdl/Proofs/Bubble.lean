import SchematicHdl.Bubble
import SchematicHdl.Proofs.Machine
import SchematicHdl.Proofs.Outcome

/-! Reservations on the bubble busses. A request adds to the count of its bus, and its range goes on
where the bus ended, all of it in words: sums beyond the largest word end the run or wrap around.
-/

namespace SchematicHdl

open Outcome

namespace PerBus

variable {α : Type}

theorem get_set (values : PerBus α) (bus other : Direction) (value : α)
    : (values.set bus value).get other = if other = bus then value else values.get other := by
  cases bus <;> cases other <;> rfl

end PerBus

@[simp] theorem BubbleRanges.get_none (bus : Direction)
    : PerBus.get BubbleRanges.none bus = Option.none := by
  cases bus <;> rfl

/-- The length of a range that does not wrap around, as far as words count it. -/
theorem BubbleRange.length_eq {range : BubbleRange} (ordered : range.first ≤ range.last)
    (word : range.last + 1 < Word.size)
    : range.length = range.last - range.first + 1 := by
  simp only [length, Word.size] at word ⊢
  omega

/-- What a request for some number of bubbles yields: nothing for none, and otherwise a range whose
last index is that many indices on, as words count.
-/
def Reserved (count : Nat) : Option BubbleRange → Prop
  | none => count = 0
  | some range => 0 < count ∧ range.last = (range.first + count - 1) % Word.size

/-- A range that does not wrap around has as many indices as were asked for. -/
theorem Reserved.last_eq {count : Nat} {range : BubbleRange}
    (reserved : Reserved count (some range))
    (word : count < Word.size) (ordered : range.first ≤ range.last)
    : range.first + count = range.last + 1 := by
  obtain ⟨positive, last⟩ := reserved
  simp only [Word.size] at last word
  omega

namespace BubbleAllocation

variable [Arithmetic] {allocation after : BubbleAllocation} {bus : Direction} {count : Nat}
  {range : Option BubbleRange}

/-- A successful request takes the next indices of its bus. -/
theorem allocate_eq_ok
    : allocation.allocate bus count = .ok (after, range)
      ↔ allocation.isSealed = false
        ∧ (count = 0 ∧ after = allocation ∧ range = none
          ∨ 0 < count
            ∧ (Arithmetic.checksOverflow = true → allocation.counts.get bus + count < Word.size)
            ∧ after
              = {
                  allocation with
                    counts :=
                      allocation.counts.set bus
                        ((allocation.counts.get bus + count) % Word.size)
                }
            ∧ range
              = some
                  ⟨allocation.counts.get bus,
                    (allocation.counts.get bus + count - 1) % Word.size⟩) := by
  unfold allocate
  split
  · next closed => simp [closed]
  · next opened =>
      have opened : allocation.isSealed = false := by simpa using opened
      split
      · next none =>
          subst none
          simp only [opened, Except.ok.injEq, Prod.mk.injEq, Nat.lt_irrefl, false_and, or_false,
            true_and]
          constructor <;> (rintro ⟨rfl, rfl⟩; exact ⟨rfl, rfl⟩)
      · next some =>
          have positive := Nat.pos_of_ne_zero some
          simp only [bind_eq_ok, mapError_eq_ok, Word.add_eq_ok, Word.subtract_eq_ok, pure_eq_ok,
            Prod.mk.injEq]
          rw [or_iff_right fun zero => some zero.1, and_iff_right opened, and_iff_right positive]
          constructor
          · rintro ⟨total, ⟨fits, sum⟩, last, ⟨-, before⟩, rfl, rfl⟩
            rw [sum, Word.mod_pred (Nat.add_pos_right _ positive)] at before
            exact ⟨fits, sum ▸ rfl, before ▸ rfl⟩
          · rintro ⟨fits, rfl, rfl⟩
            refine ⟨_, ⟨fits, rfl⟩, _, ⟨fun checks => ?_, rfl⟩, rfl, ?_⟩
            · rw [Nat.mod_eq_of_lt (fits checks)]
              omega
            · rw [Word.mod_pred (Nat.add_pos_right _ positive)]

/-- While the counts are not final, a request fails where it would leave its word, if that is
checked.
-/
theorem allocate_overflows (opened : allocation.isSealed = false) {cause : GenerationError}
    (failed : allocation.allocate bus count = .error cause)
    : Arithmetic.checksOverflow = true
      ∧ Word.size ≤ allocation.counts.get bus + count
      ∧ cause = .overflow .add := by
  cases sum : Word.add (allocation.counts.get bus) count with
  | error overflow =>
      obtain ⟨checks, excess, rfl⟩ := Word.add_eq_error.1 sum
      refine ⟨checks, excess, ?_⟩
      unfold allocate at failed
      split at failed
      · next closed => simp [opened] at closed
      · split at failed
        · cases failed
        · simp only [sum] at failed
          cases failed
          rfl
  | ok total =>
      obtain ⟨fits, -⟩ := Word.add_eq_ok.1 sum
      have granted : ∃ after range, allocation.allocate bus count = .ok (after, range) := by
        rcases Nat.eq_zero_or_pos count with none | positive
        · exact ⟨_, _, allocate_eq_ok.2 ⟨opened, .inl ⟨none, rfl, rfl⟩⟩⟩
        · exact ⟨_, _, allocate_eq_ok.2 ⟨opened, .inr ⟨positive, fits, rfl, rfl⟩⟩⟩
      obtain ⟨after, range, granted⟩ := granted
      rw [granted] at failed
      cases failed

/-- A request changes no more than counts. -/
theorem allocate_opened (h : allocation.allocate bus count = .ok (after, range))
    : after.isSealed = false := by
  obtain ⟨opened, ⟨-, rfl, -⟩ | ⟨-, -, rfl, -⟩⟩ := allocate_eq_ok.1 h <;> exact opened

theorem allocate_reserved (h : allocation.allocate bus count = .ok (after, range))
    : Reserved count range := by
  obtain ⟨-, ⟨none, -, rfl⟩ | ⟨positive, -, -, rfl⟩⟩ := allocate_eq_ok.1 h
  · exact none
  · exact ⟨positive, rfl⟩

/-- A request leaves the counts of the other busses alone. -/
theorem allocate_keeps (h : allocation.allocate bus count = .ok (after, range)) {other : Direction}
    (differs : other ≠ bus)
    : after.counts.get other = allocation.counts.get other := by
  obtain ⟨-, ⟨-, rfl, -⟩ | ⟨-, -, rfl, -⟩⟩ := allocate_eq_ok.1 h
  · rfl
  · rw [PerBus.get_set, if_neg differs]

/-- A request for all busses reserves a range on each of them. -/
theorem allocateAll_reserved {counts : BubbleCounts} {ranges : BubbleRanges}
    (h : allocation.allocateAll counts = .ok (after, ranges)) (bus : Direction)
    : Reserved (counts.get bus) (ranges.get bus) := by
  simp only [allocateAll, bind_eq_ok, pure_eq_ok, Prod.exists, Prod.mk.injEq] at h
  obtain ⟨first, input, hInput, second, output, hOutput, third, inout, hInout, rfl, rfl⟩ := h
  cases bus with
  | input => exact allocate_reserved hInput
  | output => exact allocate_reserved hOutput
  | inout => exact allocate_reserved hInout

/-- A request for all busses leaves the counts open. -/
theorem allocateAll_opened {counts : BubbleCounts} {ranges : BubbleRanges}
    (h : allocation.allocateAll counts = .ok (after, ranges))
    : after.isSealed = false := by
  simp only [allocateAll, bind_eq_ok, pure_eq_ok, Prod.exists, Prod.mk.injEq] at h
  obtain ⟨first, input, -, second, output, -, third, inout, hInout, rfl, -⟩ := h
  exact allocate_opened hInout

/-- A request for all busses fails where one of them would leave its word. -/
theorem allocateAll_overflows (opened : allocation.isSealed = false) {counts : BubbleCounts}
    {cause : GenerationError} (failed : allocation.allocateAll counts = .error cause)
    : Arithmetic.checksOverflow = true
      ∧ (∃ bus, Word.size ≤ allocation.counts.get bus + counts.get bus)
      ∧ cause = .overflow .add := by
  unfold allocateAll at failed
  rcases bind_eq_error.1 failed with failed | ⟨⟨first, input⟩, granted, failed⟩
  · obtain ⟨checks, excess, rfl⟩ := allocate_overflows opened failed
    exact ⟨checks, ⟨.input, excess⟩, rfl⟩
  have keepsInput {bus : Direction} (differs : bus ≠ .input) := allocate_keeps granted differs
  rcases bind_eq_error.1 failed with failed | ⟨⟨second, output⟩, grantedOutput, failed⟩
  · obtain ⟨checks, excess, rfl⟩ := allocate_overflows (allocate_opened granted) failed
    rw [keepsInput (by decide)] at excess
    exact ⟨checks, ⟨.output, excess⟩, rfl⟩
  have keepsOutput {bus : Direction} (differs : bus ≠ .output) :=
    allocate_keeps grantedOutput differs
  rcases bind_eq_error.1 failed with failed | ⟨_, _, failed⟩
  · obtain ⟨checks, excess, rfl⟩ := allocate_overflows (allocate_opened grantedOutput) failed
    rw [keepsOutput (by decide), keepsInput (by decide)] at excess
    exact ⟨checks, ⟨.inout, excess⟩, rfl⟩
  · cases failed

end BubbleAllocation

end SchematicHdl
