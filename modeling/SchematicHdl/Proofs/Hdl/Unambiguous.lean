import SchematicHdl.Proofs.Hdl.Atoms

/-! Texts of expressions are unambiguous. The reader takes the text of any expression back to what
the expression means, wherever the text is followed by something that cannot belong to it. So
expressions with the same text mean the same, although lists of one operand, parentheses and the
ways to spell a literal leave no trace of which expression was written.
-/

namespace SchematicHdl.Hdl

open Reader

-----------------------------------------------------------------------------------------
-- Expressions and their texts
-----------------------------------------------------------------------------------------

/-- Names are identifiers, the widths of fills are numbers, and no list is empty. -/
inductive Expr.Legible : Expr → Prop
  | ref {name} (valid : Identifier.isValid name = true) : Legible (.ref name)
  | index {name position} (valid : Identifier.isValid name = true) : Legible (.index name position)
  | slice {name high low} (valid : Identifier.isValid name = true)
    : Legible (.slice name high low)
  | const {value width} : Legible (.const value width)
  | filled {bit bits} : Legible (.filled bit (.fixed bits))
  | concat {parts} (some : parts ≠ []) (each : ∀ part ∈ parts, Legible part)
    : Legible (.concat parts)
  | not {source} (inner : Legible source) : Legible (.not source)
  | binary {op operands} (some : operands ≠ []) (each : ∀ operand ∈ operands, Legible operand)
    : Legible (.binary op operands)
  | equals {lhs rhs} (left : Legible lhs) (right : Legible rhs) : Legible (.equals lhs rhs)

namespace Expr

/-- The text beside an operator. -/
def operandText (dialect : Dialect) (expr : Expr) : String :=
  if expr.isCompound then inParens (expr.render dialect) else expr.render dialect

theorem renderOperands_eq (dialect : Dialect) (operands : List Expr)
    : renderOperands dialect operands = operands.map (operandText dialect) := by
  induction operands with
  | nil => rfl
  | cons operand rest ih => rw [renderOperands, ih, List.map_cons, operandText]

theorem renderParts_eq (dialect : Dialect) (parts : List Expr)
    : renderParts dialect parts = parts.map (render dialect) := by
  induction parts with
  | nil => rfl
  | cons part rest ih => rw [renderParts, ih, List.map_cons]

theorem operandText_eq_render {dialect : Dialect} {expr : Expr} (simple : expr.isCompound = false)
    : expr.operandText dialect = expr.render dialect := by
  simp [operandText, simple]

theorem operandText_eq_inParens {dialect : Dialect} {expr : Expr}
    (compound : expr.isCompound = true)
    : expr.operandText dialect = inParens (expr.render dialect) := by
  simp [operandText, compound]

end Expr

theorem toList_inParens (text : String)
    : (inParens text).toList = "(".toList ++ (text.toList ++ ")".toList) := by
  simp only [inParens, String.toList_append, List.append_assoc]

theorem toList_inBraces (text : String)
    : (inBraces text).toList = "\x7b".toList ++ (text.toList ++ "\x7d".toList) := by
  simp only [inBraces, String.toList_append, List.append_assoc]

theorem toList_intercalate_cons {α : Type} (separator : String) (text : α → String) (x : α)
    (xs : List α)
    : (separator.intercalate ((x :: xs).map text)).toList
      = (text x).toList ++ separated separator (fun x => (text x).toList) xs := by
  induction xs generalizing x with
  | nil => simp [separated]
  | cons y ys ih =>
      have later := ih y
      rw [List.map_cons] at later
      rw [List.map_cons, List.map_cons, String.intercalate_cons_cons, String.toList_append,
        String.toList_append, later]
      simp only [separated, List.flatMap_cons, List.append_assoc]

/-- No item is longer than all of them with separators between. -/
theorem length_le_intercalate {α : Type} (separator : String) (text : α → String) {x : α}
    {xs : List α} (listed : x ∈ xs)
    : (text x).toList.length ≤ (separator.intercalate (xs.map text)).toList.length := by
  cases xs with
  | nil => cases listed
  | cons first others =>
      rw [toList_intercalate_cons, List.length_append]
      rcases List.mem_cons.mp listed with rfl | later
      · exact Nat.le_add_right _ _
      · have inside : (text x).toList.Sublist (separator.toList ++ (text x).toList) :=
          List.sublist_append_right _ _
        have listed := List.mem_map_of_mem (f := fun x => separator.toList ++ (text x).toList) later
        have part := inside.trans (List.sublist_flatten_of_mem listed)
        exact Nat.le_trans part.length_le (Nat.le_add_left _ _)

-----------------------------------------------------------------------------------------
-- What may stand behind a text
-----------------------------------------------------------------------------------------

/-- The rest can neither belong to an operand nor go on with an operator. -/
structure Closed (dialect : Dialect) (rest : List Char) : Prop where
  delimited : Delimited rest
  alone : Joint.find? dialect rest = none

namespace Joint

/-- Operators are told by what is behind the blank. -/
theorem find?_separator {dialect : Dialect} {joint : Joint} (listed : joint ∈ all dialect)
    (rest : List Char)
    : find? dialect ((joint.separator dialect).toList ++ rest) = some joint := by
  cases dialect with
  | vhdl =>
      cases joint with
      | join => rfl
      | fold op => cases op <;> rfl
  | verilog =>
      cases joint with
      | join => simp [all] at listed
      | fold op => cases op <;> rfl

theorem head?_separator (dialect : Dialect) (joint : Joint)
    : (joint.separator dialect).toList.head? = some ' ' := by
  cases joint <;> simp [separator]

theorem separator_ne_nil (dialect : Dialect) (joint : Joint)
    : (joint.separator dialect).toList ≠ [] := by
  intro none
  have first := head?_separator dialect joint
  rw [none] at first
  cases first

end Joint

theorem delimited_text {text : String} {d : Char} (first : text.toList.head? = some d)
    (listed : d ∈ delimiters) (rest : List Char)
    : Delimited (text.toList ++ rest) := by
  intro c begins
  rw [List.head?_append, first] at begins
  obtain rfl : d = c := Option.some.inj begins
  exact listed

theorem Closed.not_separator {dialect : Dialect} {rest : List Char} (closed : Closed dialect rest)
    {joint : Joint} (listed : joint ∈ Joint.all dialect)
    : ¬(joint.separator dialect).toList <+: rest := by
  have other := List.find?_eq_none.mp closed.alone joint listed
  simpa only [List.isPrefixOf_iff_prefix] using other

/-- An operator starts with a blank. -/
theorem closed_text {text : String} {d : Char} (first : text.toList.head? = some d)
    (listed : d ∈ delimiters) (other : (d == ' ') = false) (dialect : Dialect) (rest : List Char)
    : Closed dialect (text.toList ++ rest) := by
  refine ⟨delimited_text first listed rest, List.find?_eq_none.mpr fun joint _ => ?_⟩
  rw [List.isPrefixOf_iff_prefix]
  exact not_prefix_of_head (joint.head?_separator dialect) (stops_text first other rest)

theorem closed_paren (dialect : Dialect) (rest : List Char)
    : Closed dialect (")".toList ++ rest) :=
  closed_text rfl (by decide) rfl dialect rest

theorem closed_equals (dialect : Dialect) (rest : List Char)
    : Closed dialect
        (" ".toList ++ (dialect.tokens.equalsOperator.toList ++ (" ".toList ++ rest))) := by
  refine ⟨delimited_text rfl (by decide) _, ?_⟩
  cases dialect with
  | vhdl => rfl
  | verilog => rfl

theorem closed_nil (dialect : Dialect) : Closed dialect [] := by
  refine ⟨nofun, ?_⟩
  cases dialect with
  | vhdl => rfl
  | verilog => rfl

section Texts

variable {dialect : Dialect} {inner : Reader Meaning} {depth : Nat} {front rest : List Char}
  {meaning : Meaning}

-----------------------------------------------------------------------------------------
-- Reading back
-----------------------------------------------------------------------------------------

/-- The text of an expression is taken back to its meaning, beside an operator and alone. No text
nests deeper than it is long.
-/
structure ReadBack (dialect : Dialect) (expr : Expr) : Prop where
  beside
    : ∀ {depth rest},
        (expr.operandText dialect).toList.length < depth
        → Delimited rest
        → Reads (operand dialect depth) ((expr.operandText dialect).toList ++ rest)
            expr.meaning rest
  alone
    : ∀ {depth rest},
        (expr.render dialect).toList.length < depth
        → Closed dialect rest
        → Reads (phrase dialect (operand dialect depth)) ((expr.render dialect).toList ++ rest)
            expr.meaning rest

theorem reads_phrase_alone {reader : Reader Meaning} (here : Reads reader front meaning rest)
    (closed : Closed dialect rest)
    : Reads (phrase dialect reader) front meaning rest := by
  refine reads_bind here (reads_bind (rfl : Reads get rest rest rest) ?_)
  rw [closed.alone]
  exact reads_pure

/-- In parentheses there is either a comparison or what stands alone. -/
theorem reads_inParens {text : String}
    (here : Reads inner (text.toList ++ (")".toList ++ rest)) meaning (")".toList ++ rest))
    : Reads (grouped dialect inner) ("(".toList ++ (text.toList ++ (")".toList ++ rest)))
        meaning rest := by
  refine reads_bind (reads_expect _ _) (reads_bind here (reads_second (refuses_bind ?_) ?_))
  · exact refuses_expect_head rfl (stops_text rfl rfl rest)
  · exact reads_bind (reads_expect _ _) reads_pure

/-- Beside an operator a simple expression is written as it is alone. -/
theorem ReadBack.of_simple {expr : Expr} (simple : expr.isCompound = false)
    (reads
      : ∀ depth rest,
          (expr.render dialect).toList.length ≤ depth
          → Delimited rest
          → Reads (operand dialect (depth + 1)) ((expr.render dialect).toList ++ rest)
              expr.meaning rest)
    : ReadBack dialect expr := by
  have beside {depth : Nat} {rest : List Char}
      (enough : (expr.render dialect).toList.length < depth) (delimited : Delimited rest)
      : Reads (operand dialect depth) ((expr.render dialect).toList ++ rest) expr.meaning rest := by
    obtain ⟨depth, rfl⟩ := Nat.exists_eq_add_one_of_ne_zero (Nat.ne_zero_of_lt enough)
    exact reads depth rest (Nat.le_of_lt_succ enough) delimited
  constructor
  · rw [Expr.operandText_eq_render simple]
    exact beside
  · intro depth rest enough closed
    exact reads_phrase_alone (beside enough closed.delimited) closed

/-- Beside an operator a compound expression stands in parentheses. -/
theorem ReadBack.of_compound {expr : Expr} (compound : expr.isCompound = true)
    (alone
      : ∀ {depth rest},
          (expr.render dialect).toList.length < depth
          → Closed dialect rest
          → Reads (phrase dialect (operand dialect depth)) ((expr.render dialect).toList ++ rest)
              expr.meaning rest)
    : ReadBack dialect expr := by
  refine ⟨?_, alone⟩
  intro depth rest enough _
  rw [Expr.operandText_eq_inParens compound, toList_inParens] at enough ⊢
  obtain ⟨depth, rfl⟩ := Nat.exists_eq_add_one_of_ne_zero (Nat.ne_zero_of_lt enough)
  rw [List.append_assoc, List.append_assoc]
  refine reads_paren (reads_inParens (alone ?_ (closed_paren dialect rest)))
  -- The parentheses pay for the level of depth that they take.
  simp only [List.length_append] at enough
  have marks : "(".toList.length = 1 ∧ ")".toList.length = 1 := ⟨rfl, rfl⟩
  omega

-----------------------------------------------------------------------------------------
-- Operators
-----------------------------------------------------------------------------------------

/-- The expression is written as its operands with an operator between them. -/
structure IsChain (dialect : Dialect) (joint : Joint) (operands : List Expr) (expr : Expr)
    : Prop where
  listed : joint ∈ Joint.all dialect
  text
    : expr.render dialect
      = (joint.separator dialect).intercalate (operands.map (Expr.operandText dialect))
  means : expr.meaning = joint.combine (operands.map Expr.meaning)
  compound : expr.isCompound = decide (operands.length > 1)

/-- One operand stands for itself. -/
theorem Joint.combine_singleton (joint : Joint) (meaning : Meaning)
    : joint.combine [meaning] = meaning := by
  cases joint with
  | join =>
      funext valuation
      simp [combine, Meaning.joined]
  | fold op => rfl

/-- Operands with the same operator between them are read up to a front that goes on with none. -/
theorem reads_operands {reader : Reader Meaning} {joint : Joint}
    (listed : joint ∈ Joint.all dialect) {first second : Expr} {others : List Expr}
    (each
      : ∀ operand ∈ first :: second :: others,
          ∀ rest,
            Delimited rest
            → Reads reader ((operand.operandText dialect).toList ++ rest) operand.meaning rest)
    (closed : Closed dialect rest)
    : Reads (phrase dialect reader)
        (((joint.separator dialect).intercalate
          ((first :: second :: others).map (Expr.operandText dialect))).toList ++ rest)
        (joint.combine ((first :: second :: others).map Expr.meaning)) rest := by
  obtain ⟨head, tail⟩ := List.forall_mem_cons.mp each
  have between : ∀ more, Delimited ((joint.separator dialect).toList ++ more) :=
    delimited_text (joint.head?_separator dialect) (by decide)
  have later :=
    reads_others (joint.separator_ne_nil dialect) tail between closed.delimited
      (closed.not_separator listed)
  rw [toList_intercalate_cons, List.append_assoc]
  refine reads_bind (head _ (follows_separated between closed.delimited))
    (reads_bind (rfl : Reads get _ _ _) ?_)
  have found
      : Joint.find? dialect
          (separated (joint.separator dialect)
            (fun operand => (Expr.operandText dialect operand).toList) (second :: others) ++ rest)
        = some joint := by
    rw [separated, List.flatMap_cons, List.append_assoc, List.append_assoc]
    exact Joint.find?_separator listed _
  rw [found]
  exact reads_bind later reads_pure

/-- One operand is read as itself, and several are read with the operator between them. -/
theorem IsChain.readBack {joint : Joint} {operands : List Expr} {expr : Expr}
    (chain : IsChain dialect joint operands expr) (some : operands ≠ [])
    (each : ∀ operand ∈ operands, ReadBack dialect operand)
    : ReadBack dialect expr := by
  obtain ⟨first, others, rfl⟩ := List.exists_cons_of_ne_nil some
  cases others with
  | nil =>
      have simple : expr.isCompound = false := chain.compound
      have text : expr.render dialect = first.operandText dialect := by
        rw [chain.text]
        exact String.intercalate_singleton
      have means : expr.meaning = first.meaning :=
        chain.means.trans (joint.combine_singleton first.meaning)
      refine ReadBack.of_simple simple fun depth rest enough delimited => ?_
      rw [text] at enough ⊢
      rw [means]
      exact (each first List.mem_cons_self).beside (Nat.lt_succ_of_le enough) delimited
  | cons second others =>
      refine ReadBack.of_compound chain.compound fun enough closed => ?_
      rw [chain.text] at enough ⊢
      rw [chain.means]
      refine reads_operands chain.listed (fun operand member rest delimited => ?_) closed
      have short := Nat.lt_of_le_of_lt (length_le_intercalate _ _ member) enough
      exact (each operand member).beside short delimited

theorem isChain_binary (dialect : Dialect) (op : BinaryOp) (operands : List Expr)
    : IsChain dialect (.fold op) operands (.binary op operands) where
  listed := by cases dialect <;> cases op <;> decide
  text := by rw [Expr.render, Expr.renderOperands_eq, Joint.separator]
  means := by
    funext valuation
    rw [Expr.meaning, Expr.eval, Expr.evalEach_eq, Joint.combine, Meaning.folded, List.map_map]
    rfl
  compound := by rw [Expr.isCompound]

theorem isChain_concat (parts : List Expr) : IsChain .vhdl .join parts (.concat parts) where
  listed := by decide
  text := by rw [Expr.render, Expr.renderOperands_eq, Joint.separator]
  means := by
    funext valuation
    rw [Expr.meaning, Expr.eval_concat, Joint.combine, Meaning.joined, List.map_map]
    rfl
  compound := by rw [Expr.isCompound]

/-- Parts in braces stand alone, each between commas. -/
theorem reads_parts {parts : List Expr} (some : parts ≠ [])
    (each : ∀ part ∈ parts, ReadBack .verilog part)
    (enough : ((Expr.concat parts).render .verilog).toList.length ≤ depth)
    : Reads (operand .verilog (depth + 1)) (((Expr.concat parts).render .verilog).toList ++ rest)
        (Expr.concat parts).meaning rest := by
  obtain ⟨first, others, rfl⟩ := List.exists_cons_of_ne_nil some
  have means
      : (Expr.concat (first :: others)).meaning
        = .joined (first.meaning :: others.map Expr.meaning) := by
    funext valuation
    rw [Expr.meaning, Expr.eval_concat, Meaning.joined, List.map_cons, List.map_cons, List.map_map]
    rfl
  rw [Expr.render, Expr.renderParts_eq, toList_inBraces] at enough ⊢
  have alone
      : ∀ part ∈ first :: others, ∀ rest, Closed .verilog rest →
          Reads (phrase .verilog (operand .verilog depth)) ((part.render .verilog).toList ++ rest)
            part.meaning rest := by
    intro part member rest closed
    refine (each part member).alone ?_ closed
    have short := length_le_intercalate ", " (Expr.render .verilog) member
    simp only [List.length_append] at enough
    have mark : "\x7b".toList.length = 1 := rfl
    omega
  obtain ⟨head, tail⟩ := List.forall_mem_cons.mp alone
  have between : ∀ more, Closed .verilog (", ".toList ++ more) :=
    closed_text rfl (by decide) rfl .verilog
  have last : Closed .verilog ("\x7d".toList ++ rest) :=
    closed_text rfl (by decide) rfl .verilog rest
  have noComma : ¬", ".toList <+: "\x7d".toList ++ rest :=
    not_prefix_of_head rfl (stops_text rfl rfl rest)
  have later := reads_others (by decide) tail between last noComma
  rw [toList_intercalate_cons, means]
  simp only [List.append_assoc]
  exact reads_brace (reads_first
    (reads_bind (reads_expect _ _)
      (reads_bind (head _ (follows_separated between last))
        (reads_bind later (reads_bind (reads_expect _ _) reads_pure)))))

/-- A list of one part is no compound expression, although it stands in braces. -/
theorem readBack_parts {parts : List Expr} (some : parts ≠ [])
    (each : ∀ part ∈ parts, ReadBack .verilog part)
    : ReadBack .verilog (.concat parts) := by
  cases compound : (Expr.concat parts).isCompound with
  | false => exact ReadBack.of_simple compound fun _ _ enough _ => reads_parts some each enough
  | true =>
      refine ReadBack.of_compound compound fun {depth rest} enough closed => ?_
      obtain ⟨depth, rfl⟩ := Nat.exists_eq_add_one_of_ne_zero (Nat.ne_zero_of_lt enough)
      exact reads_phrase_alone (reads_parts some each (Nat.le_of_lt_succ enough)) closed

/-- In VHDL a negation starts like a name. -/
theorem refuses_named_notOperator (dialect : Dialect) (front : List Char)
    : Refuses (named dialect) (dialect.tokens.notOperator.toList ++ ("(".toList ++ front)) := by
  cases dialect with
  | vhdl =>
      have stops : Stops Identifier.isWordChar ("(".toList ++ front) := stops_text rfl rfl front
      have word : Reads word ("NOT".toList ++ ("(".toList ++ front)) "NOT" ("(".toList ++ front) :=
        reads_word (by decide) (by decide) stops
      exact refuses_after word rfl
  | verilog => exact refuses_named (stops_text rfl rfl _)

theorem ReadBack.not {source : Expr} (inner : ReadBack dialect source)
    : ReadBack dialect (.not source) := by
  refine ReadBack.of_simple rfl fun depth rest enough _ => ?_
  have means : (Expr.not source).meaning = source.meaning.negated := by
    funext valuation
    rw [Expr.meaning, Expr.eval]
    rfl
  rw [Expr.render, String.toList_append, toList_inParens] at enough ⊢
  simp only [List.append_assoc]
  have shorter : (source.render dialect).toList.length < depth := by
    simp only [List.length_append] at enough
    have marks : "(".toList.length = 1 := rfl
    omega
  rw [means]
  exact reads_second (refuses_named_notOperator dialect _) (reads_first
    (reads_bind (reads_expect _ _)
      (reads_bind (reads_expect _ _)
        (reads_bind (inner.alone shorter (closed_paren dialect rest))
          (reads_bind (reads_expect _ _) reads_pure)))))

theorem ReadBack.equals {lhs rhs : Expr} (left : ReadBack dialect lhs)
    (right : ReadBack dialect rhs)
    : ReadBack dialect (.equals lhs rhs) := by
  refine ReadBack.of_simple rfl fun depth rest enough _ => ?_
  have means : (Expr.equals lhs rhs).meaning = lhs.meaning.compared rhs.meaning := by
    funext valuation
    rw [Expr.meaning, Expr.eval]
    rfl
  rw [Expr.render, toList_inParens] at enough ⊢
  simp only [String.toList_append, List.append_assoc, List.length_append] at enough ⊢
  have mark : "(".toList.length = 1 := rfl
  have leftShorter : (lhs.render dialect).toList.length < depth := by omega
  have rightShorter : (rhs.render dialect).toList.length < depth := by omega
  rw [means]
  refine reads_paren (reads_bind (reads_expect _ _)
    (reads_bind (left.alone leftShorter (closed_equals dialect _)) (reads_first ?_)))
  exact reads_bind (reads_expect _ _)
    (reads_bind (reads_expect _ _)
      (reads_bind (reads_expect _ _)
        (reads_bind (right.alone rightShorter (closed_paren dialect rest))
          (reads_bind (reads_expect _ _) reads_pure))))

theorem Expr.meaning_const (value width : Nat)
    : (const value width).meaning = .levels (Level.digits value width) := by
  funext valuation
  exact eval_const valuation value width

/-- A constant stands for its value modulo two to its width. -/
theorem Expr.unsigned?_eval_const (valuation : Valuation) (value width : Nat)
    : Level.unsigned? ((const value width).eval valuation) = some (value % 2 ^ width) := by
  have same : Level.digits value width = Level.digits (value % 2 ^ width) width := by
    refine List.map_congr_left fun bit listed => ?_
    have inside := List.mem_range.mp listed
    simp [Nat.testBit_mod_two_pow, inside]
  rw [eval_const, same, Level.unsigned?_digits (Nat.mod_lt _ (Nat.two_pow_pos width))]

theorem Expr.meaning_filled (bit : Bit) (bits : Nat)
    : (filled bit (.fixed bits)).meaning = .levels (List.replicate bits (.ofBit bit)) := by
  funext valuation
  rw [meaning, eval]
  rfl

/-- Legible expressions are read back, by induction on the expression. -/
theorem Expr.Legible.readBack {expr : Expr} (legible : expr.Legible) (dialect : Dialect)
    : ReadBack dialect expr := by
  induction legible with
  | ref valid => exact ReadBack.of_simple rfl fun _ _ _ delimited => reads_ref valid delimited
  | index valid => exact ReadBack.of_simple rfl fun _ _ _ _ => reads_index valid _
  | slice valid => exact ReadBack.of_simple rfl fun _ _ _ _ => reads_slice valid _ _
  | const =>
      refine ReadBack.of_simple rfl fun _ _ _ delimited => ?_
      rw [Expr.render, Expr.meaning_const]
      exact reads_constText _ _ delimited
  | filled =>
      refine ReadBack.of_simple rfl fun _ _ _ delimited => ?_
      rw [Expr.render, Expr.meaning_filled]
      exact reads_filledText _ _ delimited
  | concat some _ each =>
      cases dialect with
      | vhdl => exact (isChain_concat _).readBack some each
      | verilog => exact readBack_parts some each
  | not _ source => exact source.not
  | binary some _ each => exact (isChain_binary dialect _ _).readBack some each
  | equals _ _ left right => exact left.equals right

end Texts

/-- The reader takes the text of an expression back to its meaning. -/
theorem Expr.meaningOf?_render {expr : Expr} (legible : expr.Legible) (dialect : Dialect)
    : meaningOf? dialect (expr.render dialect) = some expr.meaning := by
  have enough : (expr.render dialect).toList.length < (expr.render dialect).length + 1 := by
    rw [String.length_toList]
    exact Nat.lt_succ_self _
  have reads := (legible.readBack dialect).alone enough (closed_nil dialect)
  rw [List.append_nil] at reads
  rw [meaningOf?, show StateT.run _ _ = _ from reads]

/-- Expressions with the same text have the same levels under every valuation. -/
theorem Expr.render_unambiguous (dialect : Dialect) {a b : Expr} (left : a.Legible)
    (right : b.Legible) (same : a.render dialect = b.render dialect) (valuation : Valuation)
    : a.eval valuation = b.eval valuation := by
  have meanings : some a.meaning = some b.meaning := by
    rw [← meaningOf?_render left dialect, same, meaningOf?_render right dialect]
  exact congrFun (Option.some.inj meanings) valuation

/-- A negated union with zeros, in a conjunction of one operand. -/
def Expr.withZeros : Expr :=
  .not (.binary .and [.binary .or [.ref "a", .filled .zero (.fixed 3)]])

/-- The same with a number that has only zeros in three bits, in another list of one operand. -/
def Expr.withEight : Expr := .not (.binary .xor [.binary .or [.ref "a", .const 8 3]])

theorem Expr.withZeros_eval_eq
    : withZeros.Legible ∧ withEight.Legible ∧ withZeros.render .vhdl = withEight.render .vhdl
      ∧ withZeros.eval ⟨[], fun _ => 3, fun _ => .floating⟩
        = withEight.eval ⟨[], fun _ => 3, fun _ => .floating⟩ := by
  have name : Identifier.isValid "a" = true := by decide +kernel
  have zeros : withZeros.Legible := by
    refine .not (.binary (List.cons_ne_nil _ _) (List.forall_mem_singleton.mpr ?_))
    refine .binary (List.cons_ne_nil _ _) ?_
    exact List.forall_mem_cons.mpr ⟨.ref name, List.forall_mem_singleton.mpr .filled⟩
  have eight : withEight.Legible := by
    refine .not (.binary (List.cons_ne_nil _ _) (List.forall_mem_singleton.mpr ?_))
    refine .binary (List.cons_ne_nil _ _) ?_
    exact List.forall_mem_cons.mpr ⟨.ref name, List.forall_mem_singleton.mpr .const⟩
  have same : withZeros.render .vhdl = withEight.render .vhdl := by decide +kernel
  exact ⟨zeros, eight, same, render_unambiguous .vhdl zeros eight same _⟩

end SchematicHdl.Hdl
