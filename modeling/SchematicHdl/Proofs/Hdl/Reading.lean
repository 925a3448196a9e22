import SchematicHdl.Proofs.Hdl.Execution
import SchematicHdl.Proofs.Respelling

/-! Reading the text of an expression back. A reader takes a text from its front and tells what the
text means: the levels that it has under each valuation. Names, numbers and literals are told by
their first characters, and operands between the same operator are gathered into one chain.
-/

namespace SchematicHdl.Hdl

/-- What a text stands for: its levels under each valuation, least significant first. -/
abbrev Meaning := Valuation → List Level

def Expr.meaning (expr : Expr) : Meaning := fun valuation => expr.eval valuation

namespace Meaning

/-- Parts side by side, the most significant one first. -/
def joined (parts : List Meaning) : Meaning :=
  fun valuation => (parts.map (fun part => part valuation)).reverse.flatten

def folded (op : BinaryOp) (operands : List Meaning) : Meaning :=
  fun valuation => op.foldBitwise (operands.map (fun operand => operand valuation))

def negated (source : Meaning) : Meaning := fun valuation => (source valuation).map Level.not

def compared (lhs rhs : Meaning) : Meaning :=
  fun valuation => [Level.agree (lhs valuation) (rhs valuation)]

/-- The same levels under every valuation. -/
def levels (levels : List Level) : Meaning := fun _ => levels

end Meaning

-----------------------------------------------------------------------------------------
-- Readers
-----------------------------------------------------------------------------------------

/-- Takes a value from the front of a text and leaves the rest. -/
abbrev Reader (α : Type) := StateT (List Char) Option α

namespace Reader

open Identifier (isWordChar startsWithLetter)

def expect (text : String) : Reader Unit :=
  fun front => (text.toList.isPrefixOf? front).map (fun rest => ((), rest))

/-- As many characters of a class as there are. -/
def span (isMember : Char → Bool) : Reader (List Char) :=
  fun front => some (front.takeWhile isMember, front.dropWhile isMember)

def word : Reader String := do
  let cs ← span isWordChar
  if startsWithLetter cs then return String.ofList cs else failure

def number : Reader Nat := do
  let digits ← span Char.isDigit
  if digits.isEmpty then failure else return Nat.ofDigitChars 10 digits 0

/-- The level that a digit stands for. -/
def levelOf? : Char → Option Level
  | '0' => some .low
  | '1' => some .high
  | 'Z' => some .floating
  | 'z' => some .floating
  | _ => none

/-- The levels of digits, in the order in which they are written. -/
def levels : Reader (List Level) := do
  let digits ← span (fun c => (levelOf? c).isSome)
  return digits.filterMap levelOf?

variable {α : Type}

/-- Further items, each behind a separator, up to the given number. -/
def othersUpTo (separator : String) (item : Reader α) : Nat → Reader (List α)
  | 0 => pure []
  | count + 1 =>
      (do
        expect separator
        let next ← item
        let later ← othersUpTo separator item count
        return next :: later)
      <|> pure []

/-- Further items, each behind a separator. -/
def others (separator : String) (item : Reader α) : Reader (List α) := do
  let front ← get
  othersUpTo separator item front.length

end Reader

-----------------------------------------------------------------------------------------
-- Expressions
-----------------------------------------------------------------------------------------

/-- What stands between operands. -/
inductive Joint where
  | join
  | fold (op : BinaryOp)
deriving DecidableEq, Repr

namespace Joint

def separator (dialect : Dialect) : Joint → String
  | .join => " & "
  | .fold op => " " ++ op.token dialect.tokens ++ " "

def combine : Joint → List Meaning → Meaning
  | .join => Meaning.joined
  | .fold op => Meaning.folded op

/-- VHDL joins parts by an operator, Verilog between braces. -/
def all : Dialect → List Joint
  | .vhdl => [.join, .fold .and, .fold .or, .fold .xor]
  | .verilog => [.fold .and, .fold .or, .fold .xor]

/-- The operator with which a text begins. -/
def find? (dialect : Dialect) (front : List Char) : Option Joint :=
  (all dialect).find? (fun joint => (joint.separator dialect).toList.isPrefixOf front)

end Joint

namespace Reader

/-- A name, or the bits of a name that stand in brackets behind it. -/
def named (dialect : Dialect) : Reader Meaning := do
  let name ← word
  if name = dialect.tokens.notOperator then failure
  else
    (do
      expect dialect.tokens.openBracket
      let high ← number
      (do
        expect dialect.tokens.rangeSeparator
        let low ← number
        expect dialect.tokens.closeBracket
        return (Expr.slice name high low).meaning)
      <|> (do
        expect dialect.tokens.closeBracket
        return (Expr.index name high).meaning))
    <|> return (Expr.ref name).meaning

def negation (dialect : Dialect) (inner : Reader Meaning) : Reader Meaning := do
  expect dialect.tokens.notOperator
  expect "("
  let source ← inner
  expect ")"
  return source.negated

/-- A comparison, or anything else that stands in parentheses. -/
def grouped (dialect : Dialect) (inner : Reader Meaning) : Reader Meaning := do
  expect "("
  let lhs ← inner
  (do
    expect " "
    expect dialect.tokens.equalsOperator
    expect " "
    let rhs ← inner
    expect ")"
    return lhs.compared rhs)
  <|> (do
    expect ")"
    return lhs)

def braced (dialect : Dialect) (inner : Reader Meaning) : Reader Meaning :=
  match dialect with
  | .vhdl => failure
  | .verilog => do
      expect "\x7b"
      let first ← inner
      let later ← others ", " inner
      expect "\x7d"
      return Meaning.joined (first :: later)

/-- Digits between marks, the most significant one first. -/
def quotedLevels (mark : String) : Reader Meaning := do
  expect mark
  let digits ← levels
  expect mark
  return Meaning.levels digits.reverse

/-- A number in so many bits, or one digit in each of so many bits. -/
def sizedLevels : Reader Meaning := do
  let width ← number
  (do
    expect "'d"
    let value ← number
    return Meaning.levels (Level.digits value width))
  <|> (do
    expect "'b"
    let digits ← levels
    return Meaning.levels (digits.flatMap (List.replicate width)))

def repeatedOnes : Reader Meaning := do
  expect "\x7b"
  let width ← number
  expect "\x7b1'b1\x7d\x7d"
  return Meaning.levels (List.replicate width .high)

def literal : Dialect → Reader Meaning
  | .vhdl => quotedLevels "'" <|> quotedLevels "\""
  | .verilog => sizedLevels <|> repeatedOnes

/-- Operands with the same operator between them, or one operand alone. -/
def phrase (dialect : Dialect) (operand : Reader Meaning) : Reader Meaning := do
  let first ← operand
  match Joint.find? dialect (← get) with
  | some joint =>
      let later ← others (joint.separator dialect) operand
      return joint.combine (first :: later)
  | none => return first

/-- What can stand beside an operator. Parentheses and braces are followed down to the given
depth.
-/
def operand (dialect : Dialect) : Nat → Reader Meaning
  | 0 => failure
  | depth + 1 =>
      let inner := phrase dialect (operand dialect depth)
      named dialect <|> negation dialect inner <|> grouped dialect inner <|> braced dialect inner
        <|> literal dialect

end Reader

/-- What a whole text means. -/
def meaningOf? (dialect : Dialect) (text : String) : Option Meaning :=
  match (Reader.phrase dialect (Reader.operand dialect (text.length + 1))).run text.toList with
  | some (meaning, []) => some meaning
  | _ => none

-----------------------------------------------------------------------------------------
-- Rules of reading
-----------------------------------------------------------------------------------------

namespace Reader

variable {α β : Type} {reader first second : Reader α} {front middle rest : List Char} {a : α}

/-- The reader takes a value from the front and leaves the rest. -/
def Reads (reader : Reader α) (front : List Char) (a : α) (rest : List Char) : Prop :=
  reader.run front = some (a, rest)

/-- The front is none that the reader can take. -/
def Refuses (reader : Reader α) (front : List Char) : Prop := reader.run front = none

theorem reads_pure : Reads (pure a) front a front := rfl

theorem reads_bind {next : α → Reader β} {b : β} (here : Reads reader front a middle)
    (later : Reads (next a) middle b rest)
    : Reads (reader >>= next) front b rest := by
  show ((reader >>= next).run front) = _
  rw [StateT.run_bind, show reader.run front = _ from here]
  exact later

theorem refuses_bind {next : α → Reader β} (here : Refuses reader front)
    : Refuses (reader >>= next) front := by
  show ((reader >>= next).run front) = _
  rw [StateT.run_bind, show reader.run front = _ from here]
  rfl

theorem refuses_after {next : α → Reader β} (here : Reads reader front a middle)
    (later : Refuses (next a) middle)
    : Refuses (reader >>= next) front := by
  show ((reader >>= next).run front) = _
  rw [StateT.run_bind, show reader.run front = _ from here]
  exact later

theorem reads_first (here : Reads first front a rest) : Reads (first <|> second) front a rest := by
  show (first.run front <|> second.run front) = _
  rw [show first.run front = _ from here]
  rfl

/-- The second reader is asked where the first one refuses. -/
theorem run_second (here : Refuses first front)
    : (first <|> second).run front = second.run front := by
  show (first.run front <|> second.run front) = _
  rw [show first.run front = _ from here]
  rfl

theorem reads_second (here : Refuses first front) (other : Reads second front a rest)
    : Reads (first <|> second) front a rest :=
  (run_second here).trans other

theorem refuses_both (here : Refuses first front) (other : Refuses second front)
    : Refuses (first <|> second) front :=
  (run_second here).trans other

-----------------------------------------------------------------------------------------
-- Characters and numbers
-----------------------------------------------------------------------------------------

/-- The rest does not go on with a character of the class. -/
def Stops (isMember : Char → Bool) (rest : List Char) : Prop :=
  ∀ c ∈ rest.head?, isMember c = false

theorem reads_expect (text : String) (rest : List Char)
    : Reads (expect text) (text.toList ++ rest) () rest := by
  show (text.toList.isPrefixOf? (text.toList ++ rest)).map _ = _
  rw [List.isPrefixOf?_eq_some_iff_append_eq.mpr rfl]
  rfl

theorem refuses_expect {text : String} (other : ¬text.toList <+: front)
    : Refuses (expect text) front := by
  show (text.toList.isPrefixOf? front).map _ = none
  rw [Option.map_eq_none_iff, Option.eq_none_iff_forall_ne_some]
  intro rest found
  exact other ⟨rest, List.isPrefixOf?_eq_some_iff_append_eq.mp found⟩

theorem Stops.imp {isMember other : Char → Bool} (stops : Stops other rest)
    (members : ∀ c, isMember c = true → other c = true)
    : Stops isMember rest := by
  intro c first
  refine Bool.eq_false_iff.mpr ?_
  intro member
  exact absurd (members c member) (Bool.eq_false_iff.mp (stops c first))

theorem stops_text {isMember : Char → Bool} {text : String} {d : Char}
    (first : text.toList.head? = some d) (outside : isMember d = false) (front : List Char)
    : Stops isMember (text.toList ++ front) := by
  intro c begins
  rw [List.head?_append, first] at begins
  obtain rfl : d = c := Option.some.inj begins
  exact outside

theorem not_prefix_of_head {text : String} {d : Char} (first : text.toList.head? = some d)
    (other : Stops (· == d) front)
    : ¬text.toList <+: front := by
  rintro ⟨tail, rfl⟩
  have begins : (text.toList ++ tail).head? = some d := by
    rw [List.head?_append, first]
    rfl
  exact absurd (other d begins) (by simp)

theorem refuses_expect_head {text : String} {d : Char} (first : text.toList.head? = some d)
    (other : Stops (· == d) front)
    : Refuses (expect text) front :=
  refuses_expect (not_prefix_of_head first other)

theorem reads_span {isMember : Char → Bool} {cs : List Char}
    (members : ∀ c ∈ cs, isMember c = true) (stops : Stops isMember rest)
    : Reads (span isMember) (cs ++ rest) cs rest := by
  have none : rest.takeWhile isMember = [] ∧ rest.dropWhile isMember = rest := by
    cases rest with
    | nil => exact ⟨rfl, rfl⟩
    | cons c others =>
        have outside := stops c rfl
        simp [outside]
  show some ((cs ++ rest).takeWhile isMember, (cs ++ rest).dropWhile isMember) = _
  rw [List.takeWhile_append_of_pos members, List.dropWhile_append_of_pos members, none.1, none.2,
    List.append_nil]

theorem reads_word {name : String} (letter : Identifier.startsWithLetter name.toList = true)
    (words : name.toList.all Identifier.isWordChar = true)
    (stops : Stops Identifier.isWordChar rest)
    : Reads word (name.toList ++ rest) name rest := by
  refine reads_bind (reads_span (List.all_eq_true.mp words) stops) ?_
  rw [if_pos letter, String.ofList_toList]
  exact reads_pure

/-- A word starts with a letter. -/
theorem refuses_word (stops : Stops Char.isAlpha front) : Refuses word front := by
  refine refuses_after (rfl : Reads (span _) _ _ _) ?_
  have plain
      : Identifier.startsWithLetter (front.takeWhile Identifier.isWordChar) = false := by
    cases front with
    | nil => rfl
    | cons c cs =>
        rw [List.takeWhile_cons]
        split
        · exact stops c rfl
        · rfl
  rw [plain]
  rfl

theorem toList_toString_nat (n : Nat) : (toString n).toList = Nat.toDigits 10 n := Nat.toList_repr

theorem reads_number (n : Nat) (stops : Stops Char.isDigit rest)
    : Reads number ((toString n).toList ++ rest) n rest := by
  rw [toList_toString_nat]
  have digits : ∀ c ∈ Nat.toDigits 10 n, c.isDigit = true := fun _ member =>
    Nat.isDigit_of_mem_toDigits (by decide) (by decide) member
  refine reads_bind (reads_span digits stops) ?_
  have some : (Nat.toDigits 10 n).isEmpty = false :=
    List.isEmpty_eq_false_iff.mpr Nat.toDigits_ne_nil
  rw [some, Nat.ofDigitChars_ten_toDigits]
  exact reads_pure

theorem refuses_number (stops : Stops Char.isDigit front) : Refuses number front := by
  have none : Reads (span Char.isDigit) ([] ++ front) [] front :=
    reads_span (fun _ listed => nomatch listed) stops
  exact refuses_after none rfl

/-- The text of a number starts with a digit. -/
theorem stops_number {isMember : Char → Bool}
    (outside : ∀ c, c.isDigit = true → isMember c = false) (n : Nat) (rest : List Char)
    : Stops isMember ((toString n).toList ++ rest) := by
  rw [toList_toString_nat]
  cases digits : Nat.toDigits 10 n with
  | nil => exact absurd digits Nat.toDigits_ne_nil
  | cons d cs =>
      have listed : d ∈ Nat.toDigits 10 n := digits ▸ List.mem_cons_self
      rintro c ⟨⟩
      exact outside d (Nat.isDigit_of_mem_toDigits (by decide) (by decide) listed)

theorem reads_levels {cs : List Char} (digits : ∀ c ∈ cs, (levelOf? c).isSome = true)
    (stops : Stops (fun c => (levelOf? c).isSome) rest)
    : Reads levels (cs ++ rest) (cs.filterMap levelOf?) rest :=
  reads_bind (reads_span digits stops) reads_pure

-----------------------------------------------------------------------------------------
-- Items behind separators
-----------------------------------------------------------------------------------------

section Others

variable {separator : String} {item : Reader α} {follows : List Char → Prop} {xs : List β}
  {text : β → List Char} {value : β → α}

/-- The text of items, each behind the separator. -/
def separated (separator : String) (text : β → List Char) (xs : List β) : List Char :=
  xs.flatMap (fun x => separator.toList ++ text x)

theorem follows_separated (between : ∀ more, follows (separator.toList ++ more))
    (last : follows rest)
    : follows (separated separator text xs ++ rest) := by
  cases xs with
  | nil => exact last
  | cons x xs =>
      rw [separated, List.flatMap_cons, List.append_assoc, List.append_assoc]
      exact between _

theorem length_le_separated (some : separator.toList ≠ [])
    : xs.length ≤ (separated separator text xs).length := by
  have pos := List.length_pos_iff.mpr some
  induction xs with
  | nil => exact Nat.zero_le _
  | cons x xs ih =>
      simp only [separated, List.flatMap_cons, List.length_append, List.length_cons] at ih ⊢
      omega

/-- Items are read up to the first front that does not go on with the separator, by induction on the
items.
-/
theorem reads_othersUpTo
    (each : ∀ x ∈ xs, ∀ rest, follows rest → Reads item (text x ++ rest) (value x) rest)
    (between : ∀ more, follows (separator.toList ++ more)) (last : follows rest)
    (ends : ¬separator.toList <+: rest) {count : Nat} (enough : xs.length ≤ count)
    : Reads (othersUpTo separator item count) (separated separator text xs ++ rest)
        (xs.map value) rest := by
  induction xs generalizing count with
  | nil =>
      cases count with
      | zero => exact reads_pure
      | succ count => exact reads_second (refuses_bind (refuses_expect ends)) reads_pure
  | cons x xs ih =>
      obtain ⟨head, tail⟩ := List.forall_mem_cons.mp each
      cases count with
      | zero => cases enough
      | succ count =>
          have goesOn : follows (separated separator text xs ++ rest) :=
            follows_separated between last
          have here := head _ goesOn
          have later := ih tail (Nat.le_of_succ_le_succ enough)
          rw [separated, List.flatMap_cons, List.append_assoc, List.append_assoc]
          exact reads_first
            (reads_bind (reads_expect _ _) (reads_bind here (reads_bind later reads_pure)))

theorem reads_others (some : separator.toList ≠ [])
    (each : ∀ x ∈ xs, ∀ rest, follows rest → Reads item (text x ++ rest) (value x) rest)
    (between : ∀ more, follows (separator.toList ++ more)) (last : follows rest)
    (ends : ¬separator.toList <+: rest)
    : Reads (others separator item) (separated separator text xs ++ rest) (xs.map value) rest := by
  refine reads_bind (rfl : Reads get _ _ _) (reads_othersUpTo each between last ends ?_)
  have enough : xs.length ≤ (separated separator text xs).length := length_le_separated some
  rw [List.length_append]
  omega

end Others

end Reader

end SchematicHdl.Hdl
