import SchematicHdl.Proofs.Sanitizing

/-! Labels for which there is no mark. A suffix without a letter or digit marks nothing, and then
the letter mark stands in for it, but only in front of a reserved label that is kept as it is: a
label that becomes a reserved word by its respelling is left reserved, and this is the one way in
which the identifier for a label is not valid.
-/

namespace SchematicHdl.Identifier

open Text

-----------------------------------------------------------------------------------------
-- Suffixes that mark nothing
-----------------------------------------------------------------------------------------

/-- What holds of the characters that are dropped need only be checked for the others. -/
theorem forall_dropWhile_iff {p : Char → Bool} {holds : Char → Prop}
    (dropped : ∀ c, p c = true → holds c) (cs : List Char)
    : (∀ c ∈ cs.dropWhile p, holds c) ↔ ∀ c ∈ cs, holds c := by
  constructor
  · intro kept c member
    rw [← List.takeWhile_append_dropWhile (p := p) (l := cs)] at member
    rcases List.mem_append.mp member with first | rest
    · exact dropped c (List.mem_takeWhile_imp first)
    · exact kept c rest
  · exact fun all c member => all c (List.dropWhile_suffix p |>.mem member)

theorem forall_trim_iff {holds : Char → Prop} (blank : ∀ c, isBlank c = true → holds c)
    (cs : List Char)
    : (∀ c ∈ trim cs, holds c) ↔ ∀ c ∈ cs, holds c := by
  simp only [trim, trimEnd, trimStart, List.mem_reverse, forall_dropWhile_iff blank]

/-- Only underscores are left of a text just when there is no letter and no digit in it, by
induction on the text.
-/
theorem squeeze_underscores_iff (afterUnderscore : Bool) (cs : List Char)
    : (∀ c ∈ squeeze afterUnderscore cs, c = '_') ↔ ∀ c ∈ cs, c.isAlphanum = false := by
  have odd_iff {c : Char} : (c = '_' || !isWordChar c) = true ↔ c.isAlphanum = false := by
    by_cases mark : c = '_'
    · subst mark
      decide
    · simp [isWordChar, mark]
  fun_induction squeeze afterUnderscore cs with
  | case1 => simp
  | case2 c rest odd ih => simp [ih, odd_iff.mp odd]
  | case3 after c rest odd first ih => simp [ih, odd_iff.mp odd]
  | case4 after c rest plain ih =>
      have other : c ≠ '_' := by
        rintro rfl
        simp at plain
      simp [other, mt odd_iff.mpr plain]

/-- A suffix marks nothing just when there is no letter and no digit in it. -/
theorem cleanSuffix_eq_nil_iff {suffix : List Char}
    : cleanSuffix suffix = [] ↔ ∀ c ∈ suffix, c.isAlphanum = false := by
  have blank (c : Char) (here : isBlank c = true) : c.isAlphanum = false := by
    have other : isWordChar c ≠ true := fun word => by
      have plain := (isWordChar_plain word).1
      rw [here] at plain
      cases plain
    exact (Bool.or_eq_false_iff.mp (Bool.eq_false_iff.mpr other)).1
  calc
    cleanSuffix suffix = [] ↔ ∀ c ∈ (squeeze false (trim suffix)).dropWhile (· = '_'), c = '_' := by
      simp [cleanSuffix, dropTrailingUnderscores]
    _ ↔ ∀ c ∈ squeeze false (trim suffix), c = '_' :=
      forall_dropWhile_iff (by simp) _
    _ ↔ ∀ c ∈ trim suffix, c.isAlphanum = false := squeeze_underscores_iff false _
    _ ↔ ∀ c ∈ suffix, c.isAlphanum = false := forall_trim_iff blank suffix

-----------------------------------------------------------------------------------------
-- The letter mark
-----------------------------------------------------------------------------------------

/-- A text in the shape of an identifier keeps it behind the letter mark. -/
theorem Shaped.lettered {cs : List Char} (shaped : Shaped cs) : Shaped ('L' :: '_' :: cs) := by
  refine ⟨rfl, ?_, ?_, ?_⟩
  · simp only [List.all_cons, shaped.words]
    decide
  · have first : cs.head? ≠ some '_' := by
      cases cs with
      | nil => nofun
      | cons c rest =>
          exact fun mark => (isWordChar_of_isAlpha shaped.letter).2 (Option.some.inj mark)
    simp [hasDoubleUnderscore, first, shaped.single]
  · cases cs with
    | nil => cases shaped.letter
    | cons c rest => simpa using shaped.last

/-- No reserved word starts with the letter mark. -/
theorem reserved_unlettered {word : String} (member : word ∈ vhdlWords ++ verilogWords)
    : ¬['l', '_'] <+: word.toList := by
  revert word
  decide +kernel

theorem toList_lettered (cs : List Char)
    : ("L_" ++ String.ofList cs).toList = 'L' :: '_' :: cs := by
  simp

theorem isReserved_lettered (cs : List Char) : isReserved ("L_" ++ String.ofList cs) = false := by
  refine Bool.eq_false_iff.mpr fun reserved => ?_
  refine reserved_unlettered (List.contains_iff_mem.mp reserved) ⟨cs.map Char.toLower, ?_⟩
  simp [foldCase]

theorem isValid_lettered {cs : List Char} (shaped : Shaped cs)
    : isValid ("L_" ++ String.ofList cs) = true :=
  isValid_iff.mpr ⟨toList_lettered cs ▸ shaped.lettered, isReserved_lettered cs⟩

-----------------------------------------------------------------------------------------
-- Any label
-----------------------------------------------------------------------------------------

/-- The label is no reserved word, but respelling makes it one. -/
def BecomesReserved (label : String) : Prop :=
  respelled (trim label.toList) ≠ trim label.toList
  ∧ isReserved (String.ofList (respelled (trim label.toList))) = true

theorem Shaped.respelled_eq {cs : List Char} (shaped : Shaped cs) : respelled cs = cs :=
  respelled_of_shape shaped.letter shaped.words shaped.single shaped.last

/-- Without a mark a label that becomes a reserved word is left so. -/
theorem sanitize_of_becomesReserved {label suffix : String}
    (unmarked : cleanSuffix suffix.toList = []) (becomes : BecomesReserved label)
    : sanitize label suffix = String.ofList (respelled (trim label.toList)) := by
  simp [sanitize, unmarked, becomes.1]

/-- Without a mark every other label gets a valid identifier. -/
theorem isValid_sanitize_of_not_becomesReserved {label suffix : String}
    (unmarked : cleanSuffix suffix.toList = []) (keeps : ¬BecomesReserved label)
    : isValid (sanitize label suffix) = true := by
  have shaped := respelled_shaped (trim label.toList)
  simp only [sanitize, unmarked, List.isEmpty_nil, if_true]
  split
  · next changed =>
      have free := fun reserved => keeps ⟨changed, reserved⟩
      exact isValid_iff.mpr ⟨by simpa using shaped, Bool.eq_false_iff.mpr free⟩
  · split
    · rw [← toList_lettered, String.ofList_toList]
      exact isValid_lettered shaped
    · next free =>
        exact isValid_iff.mpr ⟨by simpa using shaped, Bool.eq_false_iff.mpr free⟩

/-- A reserved word in the shape of an identifier gets the letter mark when there is no other. -/
theorem sanitize_of_isReserved {cs : List Char} {suffix : String}
    (unmarked : cleanSuffix suffix.toList = []) (shaped : Shaped cs)
    (reserved : isReserved (String.ofList cs) = true)
    : sanitize (String.ofList cs) suffix = "L_" ++ String.ofList cs := by
  rw [← String.ofList_toList (s := "L_" ++ String.ofList cs), toList_lettered]
  simp [sanitize, trim_eq_of_words shaped.words, shaped.respelled_eq, reserved, unmarked]

/-- Without a mark, the identifier for a label is valid, and it is its own identifier, just when the
label does not become a reserved word by its respelling. A label that does becomes that very word;
only when that is sanitized once more it gets the letter mark, so that sanitizing twice always gives
a valid identifier.
-/
theorem sanitize_unmarked {label suffix : String} (unmarked : cleanSuffix suffix.toList = [])
    : (isValid (sanitize label suffix) = true ↔ ¬BecomesReserved label)
      ∧ (sanitize (sanitize label suffix) suffix = sanitize label suffix
        ↔ ¬BecomesReserved label)
      ∧ (BecomesReserved label
        → isReserved (sanitize label suffix) = true
          ∧ sanitize (sanitize label suffix) suffix = "L_" ++ sanitize label suffix)
      ∧ isValid (sanitize (sanitize label suffix) suffix) = true := by
  by_cases becomes : BecomesReserved label
  · have shaped := respelled_shaped (trim label.toList)
    have once := sanitize_of_becomesReserved unmarked becomes
    have reserved : isReserved (sanitize label suffix) = true := by
      rw [once]
      exact becomes.2
    have invalid : isValid (sanitize label suffix) ≠ true := fun valid =>
      absurd reserved (Bool.eq_false_iff.mp (isValid_iff.mp valid).2)
    have twice : sanitize (sanitize label suffix) suffix = "L_" ++ sanitize label suffix := by
      rw [once, sanitize_of_isReserved unmarked shaped becomes.2]
    have changed : sanitize (sanitize label suffix) suffix ≠ sanitize label suffix := fun same => by
      simpa using congrArg String.length (twice.symm.trans same)
    refine ⟨iff_of_false invalid (not_not_intro becomes),
      iff_of_false changed (not_not_intro becomes), fun _ => ⟨reserved, twice⟩, ?_⟩
    rw [twice, once]
    exact isValid_lettered shaped
  · have valid := isValid_sanitize_of_not_becomesReserved unmarked becomes
    have again := sanitize_of_isValid valid suffix
    exact ⟨iff_of_true valid becomes, iff_of_true again becomes, fun other => absurd other becomes,
      (congrArg isValid again).trans valid⟩

/-- A blank between two words that make up a reserved one, and a suffix of underscores. -/
theorem pulsestyle_unmarked
    : cleanSuffix "__".toList = []
      ∧ sanitize "pulsestyle ondetect" "__" = "pulsestyle_ondetect"
      ∧ sanitize "pulsestyle_ondetect" "__" = "L_pulsestyle_ondetect" := by
  have unmarked : cleanSuffix "__".toList = [] := cleanSuffix_eq_nil_iff.mpr (by simp)
  have becomes : BecomesReserved "pulsestyle ondetect" := ⟨by decide, by decide +kernel⟩
  have once : sanitize "pulsestyle ondetect" "__" = "pulsestyle_ondetect" := by decide +kernel
  have twice := ((sanitize_unmarked unmarked).2.2.1 becomes).2
  rw [once] at twice
  exact ⟨unmarked, once, twice⟩

/-- A reserved word with an underscore behind it comes out reserved and is not its own identifier.
-/
theorem trailing_staysReserved
    : cleanSuffix "".toList = []
      ∧ isValid (sanitize "signal_" "") = false
      ∧ sanitize (sanitize "signal_" "") "" ≠ sanitize "signal_" "" := by
  decide +kernel

end SchematicHdl.Identifier
