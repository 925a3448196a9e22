import SchematicHdl.Text

/-! Texts made of pieces. A piece without a separator is told from what is behind it, and a decimal
number in a name can be read back when it is followed by an underscore or by nothing.
-/

namespace SchematicHdl.Text

/-- Nothing, or a separator with anything behind it. -/
def IsSuffix (separator : Char) (cs : List Char) : Prop := cs = [] ∨ ∃ rest, cs = separator :: rest

theorem IsSuffix.nil (separator : Char) : IsSuffix separator [] := .inl rfl

theorem IsSuffix.cons (separator : Char) (rest : List Char)
    : IsSuffix separator (separator :: rest) :=
  .inr ⟨rest, rfl⟩

theorem IsSuffix.append {separator : Char} {s t : List Char} (first : IsSuffix separator s)
    (second : IsSuffix separator t)
    : IsSuffix separator (s ++ t) := by
  rcases first with rfl | ⟨rest, rfl⟩
  · exact second
  · exact .cons separator (rest ++ t)

/-- Texts without separators are told from the suffixes behind them. -/
theorem append_suffix_inj {separator : Char} {a b s t : List Char} (plainA : separator ∉ a)
    (plainB : separator ∉ b) (suffixS : IsSuffix separator s) (suffixT : IsSuffix separator t)
    (same : a ++ s = b ++ t)
    : a = b ∧ s = t := by
  rcases List.append_eq_append_iff.mp same with ⟨more, rfl, rfl⟩ | ⟨more, rfl, rfl⟩
  · cases more with
    | nil => exact ⟨(List.append_nil _).symm, rfl⟩
    | cons c rest =>
        rcases suffixS with none | ⟨tail, here⟩
        · cases none
        · obtain ⟨rfl, -⟩ := List.cons.inj here
          simp at plainB
  · cases more with
    | nil => exact ⟨List.append_nil _, rfl⟩
    | cons c rest =>
        rcases suffixT with none | ⟨tail, here⟩
        · cases none
        · obtain ⟨rfl, -⟩ := List.cons.inj here
          simp at plainA

/-- A number is read back from the text that starts with it. -/
theorem digits_suffix_inj {n m : Nat} {s t : List Char} (suffixS : IsSuffix '_' s)
    (suffixT : IsSuffix '_' t)
    (same : Nat.toDigits 10 n ++ s = Nat.toDigits 10 m ++ t)
    : n = m ∧ s = t := by
  obtain ⟨digits, rest⟩ :=
    append_suffix_inj Nat.underscore_not_in_toDigits Nat.underscore_not_in_toDigits suffixS suffixT
      same
  refine ⟨?_, rest⟩
  calc
    n = Nat.ofDigitChars 10 (Nat.toDigits 10 n) 0 := Nat.ofDigitChars_ten_toDigits.symm
    _ = Nat.ofDigitChars 10 (Nat.toDigits 10 m) 0 := by rw [digits]
    _ = m := Nat.ofDigitChars_ten_toDigits

/-- A decimal number starts with a digit. -/
theorem toDigits_ne_cons {n : Nat} {c : Char} {rest s : List Char} (letter : c.isDigit = false)
    : Nat.toDigits 10 n ++ s ≠ c :: rest := by
  intro same
  cases digits : Nat.toDigits 10 n with
  | nil => exact Nat.toDigits_ne_nil digits
  | cons first others =>
      rw [digits, List.cons_append] at same
      obtain ⟨rfl, -⟩ := List.cons.inj same
      have listed : first ∈ Nat.toDigits 10 n := digits ▸ List.mem_cons_self
      have digit : first.isDigit = true :=
        Nat.isDigit_of_mem_toDigits (by decide) (by decide) listed
      rw [letter] at digit
      cases digit

end SchematicHdl.Text
