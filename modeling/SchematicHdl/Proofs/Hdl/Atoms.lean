import SchematicHdl.Proofs.Hdl.Reading

/-! Names and literals read back. An operand is told by its first character, so what starts neither
like a name nor with an operator, a parenthesis or a brace is a literal. Only repeated ones start
like a list in braces.
-/

namespace SchematicHdl.Hdl

open Reader

-----------------------------------------------------------------------------------------
-- What stands behind an operand
-----------------------------------------------------------------------------------------

/-- What can stand behind an operand. -/
def delimiters : List Char := [' ', ')', ',', '\x7d']

/-- The rest cannot belong to an operand that stands before it. -/
def Delimited (rest : List Char) : Prop := ∀ c ∈ rest.head?, c ∈ delimiters

namespace Delimited

variable {rest : List Char}

theorem stops (delimited : Delimited rest) {isMember : Char → Bool}
    (outside : delimiters.any isMember = false)
    : Stops isMember rest :=
  fun c first => Bool.eq_false_iff.mpr (List.any_eq_false.mp outside c (delimited c first))

theorem not_openBracket (delimited : Delimited rest) (dialect : Dialect)
    : ¬dialect.tokens.openBracket.toList <+: rest := by
  cases dialect with
  | vhdl => exact not_prefix_of_head rfl (delimited.stops rfl)
  | verilog => exact not_prefix_of_head rfl (delimited.stops rfl)

end Delimited

-----------------------------------------------------------------------------------------
-- What an operand starts with
-----------------------------------------------------------------------------------------

/-- Starts an operand that is no literal, or a list in braces. -/
def opensOperand (c : Char) : Bool := c.isAlpha || c == '~' || c == '(' || c == '\x7b'

theorem isAlpha_of_isDigit {c : Char} (digit : c.isDigit = true) : c.isAlpha = false := by
  have low : c.val ≤ '9'.val := of_decide_eq_true (Bool.and_eq_true_iff.mp digit).2
  refine Bool.eq_false_iff.mpr ?_
  intro letter
  rcases Bool.or_eq_true_iff.mp letter with upper | lower
  · have high : 'A'.val ≤ c.val := (of_decide_eq_true upper).1
    exact absurd (UInt32.le_trans high low) (by decide)
  · have high : 'a'.val ≤ c.val := of_decide_eq_true (Bool.and_eq_true_iff.mp lower).1
    exact absurd (UInt32.le_trans high low) (by decide)

theorem opensOperand_of_isDigit {c : Char} (digit : c.isDigit = true)
    : opensOperand c = false := by
  have letter := isAlpha_of_isDigit digit
  have other {d : Char} (odd : d.isDigit = false) : (c == d) = false := by
    refine beq_false_of_ne ?_
    rintro rfl
    exact absurd digit (odd ▸ Bool.false_ne_true)
  have tilde : (c == '~') = false := other rfl
  have paren : (c == '(') = false := other rfl
  have brace : (c == '\x7b') = false := other rfl
  simp only [opensOperand, letter, tilde, paren, brace, Bool.or_false]

theorem number_opens (n : Nat) (rest : List Char)
    : Stops opensOperand ((toString n).toList ++ rest) :=
  stops_number (fun _ => opensOperand_of_isDigit) n rest

section Operands

variable {dialect : Dialect} {inner : Reader Meaning} {depth : Nat} {front rest : List Char}
  {meaning : Meaning}

theorem refuses_named (letter : Stops Char.isAlpha front) : Refuses (named dialect) front :=
  refuses_bind (refuses_word letter)

theorem refuses_negation (letter : Stops Char.isAlpha front) (other : Stops (· == '~') front)
    : Refuses (negation dialect inner) front := by
  cases dialect with
  | vhdl =>
      refine refuses_bind (refuses_expect_head (d := 'N') rfl (letter.imp ?_))
      intro c same
      rw [beq_iff_eq.mp same]
      rfl
  | verilog => exact refuses_bind (refuses_expect_head rfl other)

theorem refuses_grouped (other : Stops (· == '(') front)
    : Refuses (grouped dialect inner) front :=
  refuses_bind (refuses_expect_head rfl other)

theorem refuses_braced (other : Stops (· == '\x7b') front)
    : Refuses (braced dialect inner) front := by
  cases dialect with
  | vhdl => rfl
  | verilog => exact refuses_bind (refuses_expect_head rfl other)

/-- Neither a name nor a negation starts with a parenthesis. -/
theorem reads_paren
    (here : Reads (grouped dialect (phrase dialect (operand dialect depth))) ("(".toList ++ front)
      meaning rest)
    : Reads (operand dialect (depth + 1)) ("(".toList ++ front) meaning rest := by
  have letter : Stops Char.isAlpha ("(".toList ++ front) := stops_text rfl rfl front
  exact reads_second (refuses_named letter)
    (reads_second (refuses_negation letter (stops_text rfl rfl front)) (reads_first here))

/-- Only lists and some literals start with a brace. -/
theorem reads_brace
    (here : Reads (braced dialect (phrase dialect (operand dialect depth)) <|> literal dialect)
      ("\x7b".toList ++ front) meaning rest)
    : Reads (operand dialect (depth + 1)) ("\x7b".toList ++ front) meaning rest := by
  have letter : Stops Char.isAlpha ("\x7b".toList ++ front) := stops_text rfl rfl front
  exact reads_second (refuses_named letter)
    (reads_second (refuses_negation letter (stops_text rfl rfl front))
      (reads_second (refuses_grouped (stops_text rfl rfl front)) here))

/-- What nothing else starts with is a literal. -/
theorem run_operand (other : Stops opensOperand front)
    : (operand dialect (depth + 1)).run front = (literal dialect).run front := by
  let inner := phrase dialect (operand dialect depth)
  have letter : Stops Char.isAlpha front := other.imp (by simp +contextual [opensOperand])
  have notNamed : Refuses (named dialect) front := refuses_named letter
  have notNegation : Refuses (negation dialect inner) front :=
    refuses_negation letter (other.imp (by simp +contextual [opensOperand]))
  have notGrouped : Refuses (grouped dialect inner) front :=
    refuses_grouped (other.imp (by simp +contextual [opensOperand]))
  have notBraced : Refuses (braced dialect inner) front :=
    refuses_braced (other.imp (by simp +contextual [opensOperand]))
  calc
    (operand dialect (depth + 1)).run front
    _ = (negation dialect inner <|> grouped dialect inner <|> braced dialect inner
          <|> literal dialect).run front := run_second notNamed
    _ = (grouped dialect inner <|> braced dialect inner <|> literal dialect).run front :=
      run_second notNegation
    _ = (braced dialect inner <|> literal dialect).run front := run_second notGrouped
    _ = (literal dialect).run front := run_second notBraced

theorem reads_literal (other : Stops opensOperand front)
    (here : Reads (literal dialect) front meaning rest)
    : Reads (operand dialect (depth + 1)) front meaning rest :=
  (run_operand other).trans here

theorem refuses_literal (other : Stops opensOperand front)
    (here : Refuses (literal dialect) front)
    : Refuses (operand dialect depth) front := by
  cases depth with
  | zero => rfl
  | succ depth => exact (run_operand other).trans here

-----------------------------------------------------------------------------------------
-- Digits
-----------------------------------------------------------------------------------------

theorem levelOf?_digit (dialect : Dialect) (bit : Bit)
    : levelOf? (bit.digit dialect) = some (.ofBit bit) := by
  cases dialect <;> cases bit <;> rfl

theorem levelOf?_bool (b : Bool) : levelOf? (if b then '1' else '0') = some (.ofBool b) := by
  cases b <;> rfl

/-- The text shows levels, the most significant one first. -/
def Shows (text : String) (levels : List Level) : Prop :=
  text.toList.map levelOf? = levels.reverse.map some

theorem shows_lowestBit (value : Nat) : Shows (toString (value % 2)) (Level.digits value 1) := by
  have bit : Level.digits value 1 = [.ofBool (value.testBit 0)] := rfl
  rw [Shows, bit, Nat.testBit_zero]
  rcases Nat.mod_two_eq_zero_or_one value with even | odd
  · rw [even]
    rfl
  · rw [odd]
    rfl

theorem shows_binaryDigits (value width : Nat)
    : Shows (binaryDigits value width) (Level.digits value width) := by
  rw [Shows, binaryDigits, String.toList_ofList, Level.digits, ← List.map_reverse, List.map_map,
    List.map_map]
  exact List.map_congr_left fun _ _ => levelOf?_bool _

theorem shows_replicate (dialect : Dialect) (bit : Bit) (bits : Nat)
    : Shows (String.ofList (List.replicate bits (bit.digit dialect)))
        (List.replicate bits (.ofBit bit)) := by
  rw [Shows, String.toList_ofList, List.map_replicate, levelOf?_digit, List.reverse_replicate,
    List.map_replicate]

theorem reads_shown {text : String} {levels : List Level} (shows : Shows text levels)
    (stops : Stops (fun c => (levelOf? c).isSome) rest)
    : Reads Reader.levels (text.toList ++ rest) levels.reverse rest := by
  have digits : ∀ c ∈ text.toList, (levelOf? c).isSome = true := by
    intro c member
    have listed : levelOf? c ∈ levels.reverse.map some := shows ▸ List.mem_map_of_mem member
    obtain ⟨level, -, same⟩ := List.mem_map.mp listed
    rw [← same]
    rfl
  have found : text.toList.filterMap levelOf? = levels.reverse := by
    have collected := congrArg (List.filterMap id) shows
    simpa only [List.filterMap_map, Function.comp_def, id, List.filterMap_some] using collected
  rw [← found]
  exact reads_levels digits stops

-----------------------------------------------------------------------------------------
-- Literals
-----------------------------------------------------------------------------------------

theorem reads_quotedLevels {mark : String} {d : Char} (first : mark.toList.head? = some d)
    (other : (levelOf? d).isSome = false) {text : String} {levels : List Level}
    (shows : Shows text levels)
    : Reads (quotedLevels mark) (mark.toList ++ (text.toList ++ (mark.toList ++ rest)))
        (.levels levels) rest := by
  have digits := reads_shown shows (stops_text first other rest)
  refine reads_bind (reads_expect _ _) (reads_bind digits ?_)
  rw [List.reverse_reverse]
  exact reads_bind (reads_expect _ _) reads_pure

theorem reads_scalar {text : String} {levels : List Level} (shows : Shows text levels)
    : Reads (operand .vhdl (depth + 1)) (("'" ++ text ++ "'").toList ++ rest)
        (.levels levels) rest := by
  rw [String.toList_append, String.toList_append, List.append_assoc, List.append_assoc]
  exact reads_literal (stops_text rfl rfl _) (reads_first (reads_quotedLevels rfl rfl shows))

theorem reads_vector {text : String} {levels : List Level} (shows : Shows text levels)
    : Reads (operand .vhdl (depth + 1)) (("\"" ++ text ++ "\"").toList ++ rest)
        (.levels levels) rest := by
  rw [String.toList_append, String.toList_append, List.append_assoc, List.append_assoc]
  refine reads_literal (stops_text rfl rfl _) (reads_second ?_ (reads_quotedLevels rfl rfl shows))
  exact refuses_bind (refuses_expect_head rfl (stops_text rfl rfl _))

theorem reads_sizedValue (value width : Nat) (delimited : Delimited rest)
    : Reads (operand .verilog (depth + 1))
        ((toString width ++ "'d" ++ toString value).toList ++ rest)
        (.levels (Level.digits value width)) rest := by
  have stops : Stops Char.isDigit ("'d".toList ++ ((toString value).toList ++ rest)) :=
    stops_text rfl rfl _
  have here := reads_number width stops
  have there := reads_number value (delimited.stops rfl)
  rw [String.toList_append, String.toList_append, List.append_assoc, List.append_assoc]
  refine reads_literal (number_opens width _) (reads_first (reads_bind here (reads_first ?_)))
  exact reads_bind (reads_expect _ _) (reads_bind there reads_pure)

theorem reads_sizedBits (bit : Bit) (width : Nat) (delimited : Delimited rest)
    : Reads (operand .verilog (depth + 1))
        ((toString width ++ "'b" ++ String.singleton (bit.digit .verilog)).toList ++ rest)
        (.levels (List.replicate width (.ofBit bit))) rest := by
  have stops
      : Stops Char.isDigit
          ("'b".toList ++ ((String.singleton (bit.digit .verilog)).toList ++ rest)) :=
    stops_text rfl rfl _
  have here := reads_number width stops
  have there := reads_shown (shows_replicate .verilog bit 1) (delimited.stops rfl)
  rw [String.toList_append, String.toList_append, List.append_assoc, List.append_assoc]
  refine reads_literal (number_opens width _)
    (reads_first (reads_bind here (reads_second (refuses_bind (refuses_expect ?_)) ?_)))
  · rintro ⟨tail, same⟩
    simp at same
  · refine reads_bind (reads_expect _ _) (reads_bind there ?_)
    simpa using reads_pure

/-- A number in front of a brace is no operand. -/
theorem refuses_numberBrace (width : Nat) (front : List Char)
    : Refuses (operand .verilog depth)
        ((toString width).toList ++ ("\x7b1'b1\x7d\x7d".toList ++ front)) := by
  have stops : Stops Char.isDigit ("\x7b1'b1\x7d\x7d".toList ++ front) := stops_text rfl rfl _
  refine refuses_literal (number_opens width _)
    (refuses_both (refuses_after (reads_number width stops) (refuses_both ?_ ?_)) ?_)
  · exact refuses_bind (refuses_expect_head rfl (stops_text rfl rfl _))
  · exact refuses_bind (refuses_expect_head rfl (stops_text rfl rfl _))
  · have noBrace
        : Stops (· == '\x7b') ((toString width).toList ++ ("\x7b1'b1\x7d\x7d".toList ++ front)) :=
      (number_opens width _).imp (by simp +contextual [opensOperand])
    exact refuses_bind (refuses_expect_head rfl noBrace)

/-- Repeated ones start like a list in braces, but no item of a list starts with a number in front
of a brace.
-/
theorem reads_repeatedOnes (width : Nat)
    : Reads (operand .verilog (depth + 1))
        ((inBraces (toString width ++ inBraces "1'b1")).toList ++ rest)
        (.levels (List.replicate width .high)) rest := by
  have same
      : (inBraces (toString width ++ inBraces "1'b1")).toList ++ rest
        = "\x7b".toList ++ ((toString width).toList ++ ("\x7b1'b1\x7d\x7d".toList ++ rest)) := by
    simp [inBraces]
  have stops : Stops Char.isDigit ("\x7b1'b1\x7d\x7d".toList ++ rest) := stops_text rfl rfl _
  rw [same]
  refine reads_brace (reads_second ?_ (reads_second ?_ ?_))
  · exact refuses_after (reads_expect _ _)
      (refuses_bind (refuses_bind (refuses_numberBrace width rest)))
  · exact refuses_bind (refuses_number (stops_text rfl rfl _))
  · exact reads_bind (reads_expect _ _)
      (reads_bind (reads_number width stops) (reads_bind (reads_expect _ _) reads_pure))

theorem reads_constText (value width : Nat) (delimited : Delimited rest)
    : Reads (operand dialect (depth + 1)) ((constText dialect value width).toList ++ rest)
        (.levels (Level.digits value width)) rest := by
  cases dialect with
  | vhdl =>
      by_cases single : width = 1
      · subst single
        exact reads_scalar (shows_lowestBit value)
      · simp only [constText, if_neg single]
        exact reads_vector (shows_binaryDigits value width)
  | verilog => exact reads_sizedValue value width delimited

theorem digits_zero (width : Nat) : Level.digits 0 width = List.replicate width .low := by
  simp [Level.digits, Level.ofBool]

theorem reads_filledText (bit : Bit) (bits : Nat) (delimited : Delimited rest)
    : Reads (operand dialect (depth + 1)) ((filledText dialect bit (.fixed bits)).toList ++ rest)
        (.levels (List.replicate bits (.ofBit bit))) rest := by
  by_cases single : bits = 1
  · subst single
    cases dialect with
    | vhdl => exact reads_scalar (shows_replicate .vhdl bit 1)
    | verilog => exact reads_sizedBits bit 1 delimited
  · cases dialect with
    | vhdl =>
        simp only [filledText, if_neg single]
        exact reads_vector (shows_replicate .vhdl bit bits)
    | verilog =>
        simp only [filledText, if_neg single]
        cases bit with
        | zero =>
            have same : toString bits ++ "'d0" = toString bits ++ "'d" ++ toString 0 := by
              rw [String.append_assoc]
              rfl
            rw [same, Level.ofBit, ← digits_zero]
            exact reads_sizedValue 0 bits delimited
        | one => exact reads_repeatedOnes bits
        | highZ =>
            have same
                : toString bits ++ "'bz"
                  = toString bits ++ "'b" ++ String.singleton (Bit.digit .verilog .highZ) := by
              rw [String.append_assoc]
              rfl
            rw [same]
            exact reads_sizedBits .highZ bits delimited

-----------------------------------------------------------------------------------------
-- Names
-----------------------------------------------------------------------------------------

theorem reads_name {name : String} (valid : Identifier.isValid name = true)
    (stops : Stops Identifier.isWordChar rest)
    : Reads word (name.toList ++ rest) name rest := by
  have shaped := (Identifier.isValid_iff.mp valid).1
  exact reads_word shaped.letter shaped.words stops

theorem ne_notOperator {name : String} (valid : Identifier.isValid name = true)
    (dialect : Dialect)
    : name ≠ dialect.tokens.notOperator := by
  rintro rfl
  cases dialect with
  | vhdl => exact absurd valid (by decide +kernel)
  | verilog => exact absurd valid (by decide +kernel)

theorem openBracket_stops (dialect : Dialect) (front : List Char)
    : Stops Identifier.isWordChar (dialect.tokens.openBracket.toList ++ front) := by
  cases dialect with
  | vhdl => exact stops_text rfl rfl front
  | verilog => exact stops_text rfl rfl front

theorem rangeSeparator_stops (dialect : Dialect) (front : List Char)
    : Stops Char.isDigit (dialect.tokens.rangeSeparator.toList ++ front) := by
  cases dialect with
  | vhdl => exact stops_text rfl rfl front
  | verilog => exact stops_text rfl rfl front

theorem closeBracket_stops (dialect : Dialect) (front : List Char)
    : Stops Char.isDigit (dialect.tokens.closeBracket.toList ++ front) := by
  cases dialect with
  | vhdl => exact stops_text rfl rfl front
  | verilog => exact stops_text rfl rfl front

theorem closeBracket_not_range (dialect : Dialect) (front : List Char)
    : ¬dialect.tokens.rangeSeparator.toList <+: dialect.tokens.closeBracket.toList ++ front := by
  cases dialect with
  | vhdl => exact not_prefix_of_head rfl (stops_text rfl rfl front)
  | verilog => exact not_prefix_of_head rfl (stops_text rfl rfl front)

theorem reads_ref {name : String} (valid : Identifier.isValid name = true)
    (delimited : Delimited rest)
    : Reads (operand dialect (depth + 1)) (((Expr.ref name).render dialect).toList ++ rest)
        (Expr.ref name).meaning rest := by
  rw [Expr.render]
  refine reads_first (reads_bind (reads_name valid (delimited.stops rfl)) ?_)
  rw [if_neg (ne_notOperator valid dialect)]
  exact reads_second (refuses_bind (refuses_expect (delimited.not_openBracket dialect))) reads_pure

theorem reads_index {name : String} (valid : Identifier.isValid name = true) (position : Nat)
    : Reads (operand dialect (depth + 1))
        (((Expr.index name position).render dialect).toList ++ rest)
        (Expr.index name position).meaning rest := by
  have number := reads_number position (closeBracket_stops dialect rest)
  have noRange := refuses_expect (closeBracket_not_range dialect rest)
  rw [Expr.render]
  simp only [String.toList_append, List.append_assoc]
  refine reads_first (reads_bind (reads_name valid (openBracket_stops dialect _)) ?_)
  rw [if_neg (ne_notOperator valid dialect)]
  refine reads_first (reads_bind (reads_expect _ _) (reads_bind number ?_))
  exact reads_second (refuses_bind noRange) (reads_bind (reads_expect _ _) reads_pure)

theorem reads_slice {name : String} (valid : Identifier.isValid name = true) (high low : Nat)
    : Reads (operand dialect (depth + 1))
        (((Expr.slice name high low).render dialect).toList ++ rest)
        (Expr.slice name high low).meaning rest := by
  have first := reads_number high (rangeSeparator_stops dialect
    ((toString low).toList ++ (dialect.tokens.closeBracket.toList ++ rest)))
  have last := reads_number low (closeBracket_stops dialect rest)
  rw [Expr.render]
  simp only [String.toList_append, List.append_assoc]
  refine reads_first (reads_bind (reads_name valid (openBracket_stops dialect _)) ?_)
  rw [if_neg (ne_notOperator valid dialect)]
  refine reads_first (reads_bind (reads_expect _ _) (reads_bind first (reads_first ?_)))
  exact reads_bind (reads_expect _ _) (reads_bind last (reads_bind (reads_expect _ _) reads_pure))

end Operands

end SchematicHdl.Hdl
