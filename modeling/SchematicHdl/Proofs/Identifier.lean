import Mathlib.Data.List.Basic
import SchematicHdl.Identifier

/-! Labels that are identifiers already. Nothing in them is respelled, so they are kept as they are
and never get a suffix.
-/

namespace SchematicHdl

namespace Text

/-- What has no blanks is not trimmed. -/
theorem trim_eq {cs : List Char} (plain : ∀ c ∈ cs, isBlank c = false) : trim cs = cs := by
  have kept {cs : List Char} (plain : ∀ c ∈ cs, isBlank c = false)
      : cs.dropWhile isBlank = cs := by
    cases cs with
    | nil => rfl
    | cons c rest => simp [plain c List.mem_cons_self]
  rw [trim, trimStart, trimEnd, kept plain,
    kept (fun c member => plain c (List.mem_reverse.mp member)), List.reverse_reverse]

end Text

namespace Identifier

open Text

theorem isWordChar_plain {c : Char} (word : isWordChar c = true)
    : isBlank c = false ∧ c ≠ '!' ∧ c ≠ '~' := by
  have blanks : ∀ code ∈ blankCodes, isWordChar (Char.ofNat code) = false := by decide
  refine ⟨Bool.eq_false_iff.mpr fun blank => ?_, ?_, ?_⟩
  · have other := blanks c.toNat (List.contains_iff_mem.mp blank)
    rw [Char.ofNat_toNat, word] at other
    cases other
  · rintro rfl
    exact absurd word (by decide)
  · rintro rfl
    exact absurd word (by decide)

/-- Texts without negation marks are not respelled for them, by induction on the text. -/
theorem spellNegation_eq {cs : List Char} (plain : ∀ c ∈ cs, c ≠ '!' ∧ c ≠ '~')
    : spellNegation false cs = cs := by
  induction cs with
  | nil => rfl
  | cons c rest ih =>
      obtain ⟨⟨first, second⟩, others⟩ := List.forall_mem_cons.mp plain
      simp [spellNegation, first, second, ih others]

/-- Word characters with single underscores are kept, by induction on the text. -/
theorem squeeze_eq {cs : List Char} {afterUnderscore : Bool} (words : cs.all isWordChar = true)
    (single : hasDoubleUnderscore cs = false)
    (apart : afterUnderscore = true → cs.head? ≠ some '_')
    : squeeze afterUnderscore cs = cs := by
  induction cs generalizing afterUnderscore with
  | nil => rfl
  | cons c rest ih =>
      obtain ⟨word, others⟩ := Bool.and_eq_true_iff.mp words
      obtain ⟨here, later⟩ := Bool.or_eq_false_iff.mp single
      by_cases mark : c = '_'
      · have first : afterUnderscore = false :=
          Bool.eq_false_iff.mpr fun after => apart after (congrArg some mark)
        have kept : squeeze true rest = rest :=
          ih others later fun _ => by simpa [mark] using here
        simp [squeeze, mark, first, kept]
      · have kept : squeeze false rest = rest := ih others later (by simp)
        simp [squeeze, mark, word, kept]

theorem dropTrailingUnderscores_eq {cs : List Char} (last : cs.getLast? ≠ some '_')
    : dropTrailingUnderscores cs = cs := by
  rw [← List.head?_reverse] at last
  unfold dropTrailingUnderscores
  cases reversed : cs.reverse with
  | nil => exact (List.reverse_eq_nil_iff.mp reversed).symm
  | cons c rest =>
      have other : ¬c = '_' := by simpa [reversed] using last
      rw [List.dropWhile_cons_of_neg (by simpa using other), ← reversed, List.reverse_reverse]

/-- A text in the shape of an identifier is not respelled. -/
theorem respelled_of_shape {cs : List Char} (letter : startsWithLetter cs = true)
    (words : cs.all isWordChar = true) (single : hasDoubleUnderscore cs = false)
    (last : cs.getLast? ≠ some '_')
    : respelled cs = cs := by
  have plain (c : Char) (member : c ∈ cs) : c ≠ '!' ∧ c ≠ '~' :=
    (isWordChar_plain (List.all_eq_true.mp words c member)).2
  have squeezed : squeeze false cs = cs := squeeze_eq words single (by simp)
  rw [respelled, spellNegation_eq plain, ensureLetter, if_pos letter, squeezed,
    dropTrailingUnderscores_eq last]

/-- Word characters are not trimmed. -/
theorem trim_eq_of_words {cs : List Char} (words : cs.all isWordChar = true) : trim cs = cs :=
  trim_eq fun c member => (isWordChar_plain (List.all_eq_true.mp words c member)).1

/-- A valid label is not respelled. -/
theorem respelled_of_isValid {label : String} (valid : isValid label = true)
    : respelled label.toList = label.toList := by
  simp only [isValid, Bool.and_eq_true, Bool.not_eq_true'] at valid
  obtain ⟨⟨⟨⟨letter, words⟩, last⟩, single⟩, -⟩ := valid
  exact respelled_of_shape letter words single (by simpa using last)

/-- A valid label is kept, whatever the suffix. -/
theorem sanitize_of_isValid {label : String} (valid : isValid label = true) (suffix : String)
    : sanitize label suffix = label := by
  have spelled := respelled_of_isValid valid
  simp only [isValid, Bool.and_eq_true, Bool.not_eq_true'] at valid
  obtain ⟨⟨⟨⟨-, words⟩, -⟩, -⟩, free⟩ := valid
  simp [sanitize, trim_eq_of_words words, spelled, free]

/-- A valid label is an identifier, whatever stands at its position. -/
theorem ofLabel_of_isValid {label : String} (valid : isValid label = true) (position : Nat)
    : ofLabel label position = label :=
  sanitize_of_isValid valid (toString position)

end Identifier

end SchematicHdl
