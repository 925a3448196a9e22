import SchematicHdl.Proofs.Respelling

/-! Sanitized labels. Whatever the label, the identifier for it can be used in emitted text and
stays as it is when it is sanitized once more: a label that is an identifier between its blanks is
kept, and any other one gets the shape of an identifier that ends in a number, which no reserved
word does.
-/

namespace SchematicHdl.Identifier

open Text

-----------------------------------------------------------------------------------------
-- Marked texts
-----------------------------------------------------------------------------------------

/-- No two underscores meet where a text that ends in none is followed by one, by induction on the
text.
-/
theorem hasDoubleUnderscore_append {cs rest : List Char} (first : hasDoubleUnderscore cs = false)
    (last : cs.getLast? ≠ some '_') (second : hasDoubleUnderscore rest = false)
    : hasDoubleUnderscore (cs ++ rest) = false := by
  induction cs with
  | nil => exact second
  | cons c others ih =>
      obtain ⟨here, later⟩ := Bool.or_eq_false_iff.mp first
      cases others with
      | nil =>
          have other : c ≠ '_' := by simpa using last
          simp [hasDoubleUnderscore, other, second]
      | cons next tail =>
          have joined := ih later (by simpa using last)
          exact Bool.or_eq_false_iff.mpr ⟨here, joined⟩

/-- A text in the shape of an identifier keeps it when a number is put behind it. -/
theorem Shaped.marked {cs : List Char} (shaped : Shaped cs) (n : Nat)
    : Shaped (cs ++ '_' :: Nat.toDigits 10 n) := by
  have plain : '_' ∉ Nat.toDigits 10 n := Nat.underscore_not_in_toDigits
  refine ⟨?_, ?_, ?_, ?_⟩
  · cases cs with
    | nil => cases shaped.letter
    | cons c rest => exact shaped.letter
  · have digits : (Nat.toDigits 10 n).all isWordChar = true :=
      List.all_eq_true.mpr fun _ => isWordChar_of_mem_toDigits
    simp only [List.all_append, List.all_cons, shaped.words, digits]
    decide
  · refine hasDoubleUnderscore_append shaped.single shaped.last (Bool.or_eq_false_iff.mpr ⟨?_, ?_⟩)
    · have first : (Nat.toDigits 10 n).head? ≠ some '_' := fun first =>
        plain (List.mem_of_head? first)
      simp [first]
    · exact hasDoubleUnderscore_of_not_mem plain
  · rw [List.getLast?_append_of_ne_nil _ (List.cons_ne_nil _ _), List.getLast?_cons_of_ne_nil]
    · exact fun last => plain (List.mem_of_getLast? last)
    · exact Nat.toDigits_ne_nil

/-- No reserved word ends in an underscore and a number. -/
theorem reserved_unmarked {word : String} (member : word ∈ vhdlWords ++ verilogWords)
    : IsUnnumbered word := by
  revert word
  decide +kernel

/-- What ends in an underscore and a number is not reserved. -/
theorem isReserved_marked (cs : List Char) (n : Nat)
    : isReserved (String.ofList (cs ++ '_' :: Nat.toDigits 10 n)) = false := by
  refine Bool.eq_false_iff.mpr fun reserved => ?_
  have folded
      : (foldCase (String.ofList (cs ++ '_' :: Nat.toDigits 10 n))).toList
        = cs.map Char.toLower ++ '_' :: Nat.toDigits 10 n := by
    rw [foldCase, String.toList_ofList, String.toList_ofList, map_toLower_marked]
  exact not_isUnnumbered folded (reserved_unmarked (List.contains_iff_mem.mp reserved))

-----------------------------------------------------------------------------------------
-- Any label
-----------------------------------------------------------------------------------------

/-- A label that is an identifier between its blanks loses the blanks and nothing else. -/
theorem ofLabel_of_trimmed {label : String}
    (valid : isValid (String.ofList (trim label.toList)) = true) (position : Nat)
    : ofLabel label position = String.ofList (trim label.toList) := by
  have spelled := respelled_of_isValid valid
  have free := (isValid_iff.mp valid).2
  rw [String.toList_ofList] at spelled
  simp [ofLabel, sanitize, spelled, free]

/-- A label that is respelled gets a valid identifier. -/
theorem isValid_ofLabel_of_isRespelled {label : String} (odd : IsRespelled label) (position : Nat)
    : isValid (ofLabel label position) = true := by
  have spelled := ofLabel_of_isRespelled odd position
  refine isValid_iff.mpr ⟨?_, ?_⟩
  · rw [spelled]
    exact (respelled_shaped _).marked position
  · rw [← String.ofList_toList (s := ofLabel label position), spelled]
    exact isReserved_marked _ position

/-- The identifier for any label is valid when the label is marked with a number where needed; it
is its own identifier, and it is the label without the blanks around it just when that is a valid
identifier.
-/
theorem sanitize_usable (label : String) (n : Nat)
    : isValid (sanitize label (toString n)) = true
      ∧ sanitize (sanitize label (toString n)) (toString n) = sanitize label (toString n)
      ∧ (sanitize label (toString n) = String.ofList (trim label.toList)
        ↔ isValid (String.ofList (trim label.toList)) = true) := by
  have valid : isValid (ofLabel label n) = true := by
    by_cases kept : isValid (String.ofList (trim label.toList)) = true
    · rwa [ofLabel_of_trimmed kept]
    · exact isValid_ofLabel_of_isRespelled (Bool.eq_false_iff.mpr kept) n
  change isValid (ofLabel label n) = true
    ∧ ofLabel (ofLabel label n) n = ofLabel label n
    ∧ (ofLabel label n = String.ofList (trim label.toList)
      ↔ isValid (String.ofList (trim label.toList)) = true)
  refine ⟨valid, ofLabel_of_isValid valid n, fun same => ?_, fun kept => ofLabel_of_trimmed kept n⟩
  rw [← same]
  exact valid

end SchematicHdl.Identifier
