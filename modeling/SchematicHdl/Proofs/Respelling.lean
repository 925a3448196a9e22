import Mathlib.Data.List.DropRight
import SchematicHdl.Proofs.Identifier
import SchematicHdl.Proofs.Text

/-! Labels that are respelled. Respelling any text gives the shape of an identifier, so a label that
is no identifier is changed by it or is reserved, and either way the decimal number of its position
is put behind it. That number is read back from the identifier, whatever the letter case.
-/

namespace SchematicHdl.Identifier

open Text

-----------------------------------------------------------------------------------------
-- The shape of identifiers
-----------------------------------------------------------------------------------------

/-- A text in the shape of an identifier, which may still be a reserved word. -/
structure Shaped (cs : List Char) : Prop where
  letter : startsWithLetter cs = true
  words : cs.all isWordChar = true
  single : hasDoubleUnderscore cs = false
  last : cs.getLast? ≠ some '_'

theorem isValid_iff {label : String}
    : isValid label = true ↔ Shaped label.toList ∧ isReserved label = false := by
  simp only [isValid, Bool.and_eq_true, Bool.not_eq_true', decide_eq_false_iff_not]
  constructor
  · rintro ⟨⟨⟨⟨letter, words⟩, last⟩, single⟩, free⟩
    exact ⟨⟨letter, words, single, last⟩, free⟩
  · rintro ⟨⟨letter, words, single, last⟩, free⟩
    exact ⟨⟨⟨⟨letter, words⟩, last⟩, single⟩, free⟩

theorem squeeze_words (afterUnderscore : Bool) (cs : List Char)
    : (squeeze afterUnderscore cs).all isWordChar = true := by
  fun_induction squeeze afterUnderscore cs with
  | case1 => rfl
  | case2 c rest odd ih => exact ih
  | case3 after c rest odd first ih => simpa [isWordChar] using ih
  | case4 after c rest plain ih =>
      have word : isWordChar c = true := by
        cases here : isWordChar c <;> simp [here] at plain ⊢
      simp [word, ih]

theorem squeeze_head (cs : List Char) : (squeeze true cs).head? ≠ some '_' := by
  induction cs with
  | nil => nofun
  | cons c rest ih =>
      simp only [squeeze]
      split
      · exact ih
      · next plain =>
          rintro mark
          simp [Option.some.inj mark] at plain

/-- Squeezing leaves no two underscores in a row, by induction on the text. -/
theorem squeeze_single (afterUnderscore : Bool) (cs : List Char)
    : hasDoubleUnderscore (squeeze afterUnderscore cs) = false := by
  fun_induction squeeze afterUnderscore cs with
  | case1 => rfl
  | case2 c rest odd ih => exact ih
  | case3 after c rest odd first ih => simp [hasDoubleUnderscore, ih, squeeze_head]
  | case4 after c rest plain ih =>
      have other : c ≠ '_' := by
        rintro rfl
        simp at plain
      simp [hasDoubleUnderscore, other, ih]

theorem isWordChar_of_isAlpha {c : Char} (letter : c.isAlpha = true)
    : isWordChar c = true ∧ c ≠ '_' := by
  refine ⟨by simp [isWordChar, Char.isAlphanum, letter], ?_⟩
  rintro rfl
  exact absurd letter (by decide)

theorem squeeze_letter {cs : List Char} (letter : startsWithLetter cs = true)
    : startsWithLetter (squeeze false cs) = true := by
  cases cs with
  | nil => cases letter
  | cons c rest =>
      obtain ⟨word, other⟩ := isWordChar_of_isAlpha letter
      simpa [squeeze, word, other, startsWithLetter] using letter

theorem ensureLetter_letter (cs : List Char) : startsWithLetter (ensureLetter cs) = true := by
  unfold ensureLetter
  split
  · assumption
  · rfl

theorem hasDoubleUnderscore_of_append {cs rest : List Char}
    (single : hasDoubleUnderscore (cs ++ rest) = false)
    : hasDoubleUnderscore cs = false := by
  induction cs with
  | nil => rfl
  | cons c others ih =>
      obtain ⟨here, later⟩ := Bool.or_eq_false_iff.mp single
      refine Bool.or_eq_false_iff.mpr ⟨?_, ih later⟩
      cases others with
      | nil => simp
      | cons next tail => exact here

/-- Squeezed texts that start with a letter have the shape of identifiers once the underscores at
their ends are dropped, by induction from the last character on.
-/
theorem dropTrailingUnderscores_shaped {cs : List Char} (letter : startsWithLetter cs = true)
    (words : cs.all isWordChar = true) (single : hasDoubleUnderscore cs = false)
    : Shaped (dropTrailingUnderscores cs) := by
  induction cs using List.reverseRecOn with
  | nil => cases letter
  | append_singleton cs last ih =>
      by_cases mark : last = '_'
      · subst mark
        have dropped : dropTrailingUnderscores (cs ++ ['_']) = dropTrailingUnderscores cs :=
          List.rdropWhile_concat_pos _ _ _ (decide_eq_true rfl)
        rw [dropped]
        refine ih ?_ ?_ (hasDoubleUnderscore_of_append single)
        · cases cs with
          | nil => cases letter
          | cons c rest => exact letter
        · rw [List.all_append, Bool.and_eq_true] at words
          exact words.1
      · have last : (cs ++ [last]).getLast? ≠ some '_' := by simpa using mark
        rw [dropTrailingUnderscores_eq last]
        exact ⟨letter, words, single, last⟩

/-- A respelled text has the shape of an identifier. -/
theorem respelled_shaped (cs : List Char) : Shaped (respelled cs) :=
  dropTrailingUnderscores_shaped (squeeze_letter (ensureLetter_letter _)) (squeeze_words _ _)
    (squeeze_single _ _)

-----------------------------------------------------------------------------------------
-- The mark
-----------------------------------------------------------------------------------------

theorem isWordChar_of_mem_toDigits {n : Nat} {c : Char} (member : c ∈ Nat.toDigits 10 n)
    : isWordChar c = true := by
  have digit : c.isDigit = true := Nat.isDigit_of_mem_toDigits (by decide) (by decide) member
  simp [isWordChar, Char.isAlphanum, digit]

theorem hasDoubleUnderscore_of_not_mem {cs : List Char} (plain : '_' ∉ cs)
    : hasDoubleUnderscore cs = false := by
  induction cs with
  | nil => rfl
  | cons c rest ih =>
      simp only [List.mem_cons, not_or] at plain
      simp [hasDoubleUnderscore, Ne.symm plain.1, ih plain.2]

/-- A decimal number is a mark as it stands. -/
theorem cleanSuffix_toDigits (n : Nat) : cleanSuffix (Nat.toDigits 10 n) = Nat.toDigits 10 n := by
  have plain : '_' ∉ Nat.toDigits 10 n := Nat.underscore_not_in_toDigits
  have words (c : Char) (member : c ∈ Nat.toDigits 10 n) : isWordChar c = true :=
    isWordChar_of_mem_toDigits member
  have trimmed : trim (Nat.toDigits 10 n) = Nat.toDigits 10 n :=
    trim_eq fun c member => (isWordChar_plain (words c member)).1
  have squeezed : squeeze false (Nat.toDigits 10 n) = Nat.toDigits 10 n :=
    squeeze_eq (List.all_eq_true.mpr words) (hasDoubleUnderscore_of_not_mem plain) nofun
  have first : (Nat.toDigits 10 n).dropWhile (· = '_') = Nat.toDigits 10 n := by
    cases digits : Nat.toDigits 10 n with
    | nil => rfl
    | cons c rest =>
        rw [digits] at plain
        exact List.dropWhile_cons_of_neg (by simpa using fun same => plain (by simp [same]))
  have last : (Nat.toDigits 10 n).getLast? ≠ some '_' := fun last =>
    plain (List.mem_of_getLast? last)
  rw [cleanSuffix, trimmed, squeezed, first, dropTrailingUnderscores_eq last]

/-- The label cannot be used as it stands, blanks around it apart. -/
def IsRespelled (label : String) : Prop := isValid (String.ofList (trim label.toList)) = false

instance (label : String) : Decidable (IsRespelled label) := inferInstanceAs (Decidable (_ = false))

/-- A label that is no identifier is respelled and marked with its position. -/
theorem ofLabel_of_isRespelled {label : String} (odd : IsRespelled label) (position : Nat)
    : (ofLabel label position).toList
      = respelled (trim label.toList) ++ '_' :: Nat.toDigits 10 position := by
  have mark : cleanSuffix (toString position).toList = Nat.toDigits 10 position := by
    simpa [toString] using cleanSuffix_toDigits position
  have some : (Nat.toDigits 10 position).isEmpty = false := by simp
  simp only [ofLabel, sanitize, mark, some]
  by_cases changed : respelled (trim label.toList) ≠ trim label.toList
  · rw [if_pos changed]
    simp
  · -- an unchanged text has the shape of an identifier, so it is reserved
    have same := not_ne_iff.mp changed
    have reserved : isReserved (String.ofList (respelled (trim label.toList))) = true := by
      by_contra free
      have valid : isValid (String.ofList (trim label.toList)) = true := by
        refine isValid_iff.mpr ⟨?_, ?_⟩
        · simpa [same] using respelled_shaped (trim label.toList)
        · simpa [same] using free
      rw [IsRespelled, valid] at odd
      cases odd
    rw [if_neg changed, if_pos reserved]
    simp

-----------------------------------------------------------------------------------------
-- Letter case
-----------------------------------------------------------------------------------------

theorem toLower_of_isDigit {c : Char} (digit : c.isDigit = true) : c.toLower = c := by
  have low : c.val ≤ '9'.val := by
    simp only [Char.isDigit, Bool.and_eq_true, decide_eq_true_eq] at digit
    exact digit.2
  have below : ¬ 'A'.val ≤ c.val := fun high =>
    absurd (UInt32.le_trans high low) (by decide)
  exact dif_neg fun upper => below upper.1

theorem map_toLower_toDigits (n : Nat)
    : (Nat.toDigits 10 n).map Char.toLower = Nat.toDigits 10 n := by
  calc
    (Nat.toDigits 10 n).map Char.toLower = (Nat.toDigits 10 n).map id :=
      List.map_congr_left fun c member =>
        toLower_of_isDigit (Nat.isDigit_of_mem_toDigits (by decide) (by decide) member)
    _ = Nat.toDigits 10 n := List.map_id _

theorem map_toLower_marked (cs : List Char) (n : Nat)
    : (cs ++ '_' :: Nat.toDigits 10 n).map Char.toLower
      = cs.map Char.toLower ++ '_' :: Nat.toDigits 10 n := by
  have mark : '_'.toLower = '_' := by decide
  simp [map_toLower_toDigits, mark]

/-- A number behind a text is read back with the text: from the end on, it is what stands before the
first underscore.
-/
theorem marked_inj {cs ds : List Char} {n m : Nat}
    (same : cs ++ '_' :: Nat.toDigits 10 n = ds ++ '_' :: Nat.toDigits 10 m)
    : cs = ds ∧ n = m := by
  have texts := congrArg List.reverse same
  simp only [List.reverse_append, List.reverse_cons, List.append_assoc] at texts
  have plain (n : Nat) : '_' ∉ (Nat.toDigits 10 n).reverse := by
    simp
  obtain ⟨digits, rest⟩ := append_suffix_inj (plain n) (plain m) (.cons _ _) (.cons _ _) texts
  have numbers : Nat.toDigits 10 n = Nat.toDigits 10 m := List.reverse_injective digits
  exact
    ⟨List.reverse_injective (List.cons.inj rest).2,
      (digits_suffix_inj (.nil _) (.nil _) (congrArg (· ++ []) numbers)).1⟩

/-- Ignoring letter case, respelled labels are told apart by their positions. -/
theorem position_eq_of_foldCase {a b : String} {i j : Nat} (oddA : IsRespelled a)
    (oddB : IsRespelled b) (same : foldCase (ofLabel a i) = foldCase (ofLabel b j))
    : i = j := by
  have texts := String.ofList_injective same
  rw [ofLabel_of_isRespelled oddA, ofLabel_of_isRespelled oddB, map_toLower_marked,
    map_toLower_marked] at texts
  exact (marked_inj texts).2

-----------------------------------------------------------------------------------------
-- Numbered names
-----------------------------------------------------------------------------------------

/-- A name that is made up: a stem with a number. -/
def numbered (stem : String) (n : Nat) : String := s!"{stem}_{n}"

theorem toList_foldCase_numbered (stem : String) (n : Nat)
    : (foldCase (numbered stem n)).toList
      = stem.toList.map Char.toLower ++ '_' :: Nat.toDigits 10 n := by
  have spelled : (numbered stem n).toList = stem.toList ++ '_' :: Nat.toDigits 10 n := by
    simp [numbered, toString]
  rw [foldCase, String.toList_ofList, spelled, map_toLower_marked]

theorem foldCase_numbered_inj {stem other : String} {n m : Nat}
    (same : foldCase (numbered stem n) = foldCase (numbered other m))
    : foldCase stem = foldCase other ∧ n = m := by
  have texts := congrArg String.toList same
  rw [toList_foldCase_numbered, toList_foldCase_numbered] at texts
  exact (marked_inj texts).imp_left (congrArg String.ofList)

/-- The name does not end in an underscore and a number. -/
def IsUnnumbered (name : String) : Prop :=
  (name.toList.reverse.dropWhile Char.isDigit).head? ≠ some '_'

instance (name : String) : Decidable (IsUnnumbered name) := inferInstanceAs (Decidable (_ ≠ _))

theorem not_isUnnumbered {name : String} {cs : List Char} {n : Nat}
    (marked : name.toList = cs ++ '_' :: Nat.toDigits 10 n)
    : ¬IsUnnumbered name := by
  have digits : ∀ c ∈ (Nat.toDigits 10 n).reverse, c.isDigit = true := fun c member =>
    Nat.isDigit_of_mem_toDigits (by decide) (by decide) (List.mem_reverse.mp member)
  rw [IsUnnumbered, marked, List.reverse_append, List.reverse_cons, List.append_assoc,
    List.dropWhile_append_of_pos digits]
  exact not_not_intro rfl

/-- Other names are not made up. -/
theorem foldCase_numbered_ne {name : String} (unnumbered : IsUnnumbered (foldCase name))
    (stem : String) (n : Nat)
    : foldCase (numbered stem n) ≠ foldCase name := fun same =>
  not_isUnnumbered (same ▸ toList_foldCase_numbered stem n) unnumbered

end SchematicHdl.Identifier
