import SchematicHdl.Machine

/-! What a machine leaves open. Arithmetic on words wraps around in one build and ends the run in
the other; where the exact result is a word, both give that result. A hash map lists its entries in
any order, but it lists these entries.
-/

namespace SchematicHdl

/-- An optimized build, in a run whose hash maps list their entries first to last. -/
abbrev Machine.inOrder : Machine where
  checksOverflow := false
  arrange _ clocks := clocks
  arrange_perm _ _ := .refl _

/-- A build with overflow checks, in a run whose hash maps list their entries first to last. -/
abbrev Machine.checked : Machine where
  checksOverflow := true
  arrange _ clocks := clocks
  arrange_perm _ _ := .refl _

theorem Machine.mem_arrange [Machine] {circuit : Nat} {clocks : List (Nat × Nat)}
    {clock : Nat × Nat}
    : clock ∈ Machine.arrange circuit clocks ↔ clock ∈ clocks :=
  (Machine.arrange_perm circuit clocks).mem_iff

namespace Word

theorem size_pos : 0 < size := by decide

/-- One less than a sum of words. -/
theorem mod_pred {n : Nat} (positive : 0 < n) : (n % size + size - 1) % size = (n - 1) % size := by
  simp only [size]
  omega

variable [Arithmetic] {a b result : Nat}

theorem add_eq_ok
    : add a b = .ok result
      ↔ (Arithmetic.checksOverflow = true → a + b < size) ∧ result = (a + b) % size := by
  unfold add
  cases Arithmetic.checksOverflow <;> simp only [Bool.true_and, Bool.false_and, decide_eq_true_eq]
  · simp [eq_comm]
  · split
    · next excess => simp [Nat.not_lt.mpr excess]
    · next fits => simp [Nat.lt_of_not_le fits, eq_comm]

theorem add_eq_error {overflow : Overflow}
    : add a b = .error overflow
      ↔ Arithmetic.checksOverflow = true ∧ size ≤ a + b ∧ overflow = .add := by
  unfold add
  cases Arithmetic.checksOverflow <;> simp only [Bool.true_and, Bool.false_and, decide_eq_true_eq]
  · simp
  · split
    · next excess => simp [excess, eq_comm]
    · next fits => simp [fits]

theorem subtract_eq_ok
    : subtract a b = .ok result
      ↔ (Arithmetic.checksOverflow = true → b ≤ a) ∧ result = (a + size - b) % size := by
  unfold subtract
  cases Arithmetic.checksOverflow <;> simp only [Bool.true_and, Bool.false_and, decide_eq_true_eq]
  · simp [eq_comm]
  · split
    · next under => simp [Nat.not_le.mpr under]
    · next fits => simp [Nat.le_of_not_lt fits, eq_comm]

theorem power_eq_ok {places : Nat}
    : power places = .ok result
      ↔ (Arithmetic.checksOverflow = true → places < longBits)
        ∧ result = Nat.pow 2 (places % longBits) := by
  unfold power
  cases Arithmetic.checksOverflow <;> simp only [Bool.true_and, Bool.false_and, decide_eq_true_eq]
  · simp [eq_comm]
  · split
    · next excess => simp [Nat.not_lt.mpr excess]
    · next fits => simp [Nat.lt_of_not_le fits, eq_comm]

end Word

end SchematicHdl
