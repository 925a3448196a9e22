import SchematicHdl.Proofs.Hdl.Meaning

/-! Statements carried out in order. A statement gives its target the levels of a value, and later
statements see them. It can be carried out only where both languages agree on what it does: its
expressions are as wide as the operators and the target demand, and every condition that is asked
for is either low or high.
-/

namespace SchematicHdl.Hdl

-----------------------------------------------------------------------------------------
-- Numbers
-----------------------------------------------------------------------------------------

namespace Level

/-- The low binary digits of a number, least significant first. -/
def digits (number width : Nat) : List Level :=
  (List.range width).map (fun bit => ofBool (number.testBit bit))

/-- The unsigned number of levels that are all low or high, least significant first. -/
def unsigned? : List Level → Option Nat
  | [] => some 0
  | .low :: rest => (unsigned? rest).map (fun upper => 2 * upper)
  | .high :: rest => (unsigned? rest).map (fun upper => 2 * upper + 1)
  | _ => none

@[simp] theorem length_digits (number width : Nat) : (digits number width).length = width := by
  simp [digits]

theorem digits_succ (number width : Nat)
    : digits number (width + 1) = ofBool (number.testBit 0) :: digits (number / 2) width := by
  simp [digits, List.range_succ_eq_map, Nat.testBit_succ]

theorem unsigned?_cons (bit : Bool) (rest : List Level)
    : unsigned? (ofBool bit :: rest)
      = (unsigned? rest).map (fun upper => 2 * upper + bit.toNat) := by
  cases bit <;> rfl

/-- The digits of a number that fits are read as the number, by induction on their count. -/
theorem unsigned?_digits {number width : Nat} (fits : number < 2 ^ width)
    : unsigned? (digits number width) = some number := by
  induction width generalizing number with
  | zero =>
      obtain rfl : number = 0 := by simpa using fits
      rfl
  | succ width ih =>
      have upper : number / 2 < 2 ^ width := by
        rw [Nat.pow_succ] at fits
        omega
      have split : 2 * (number / 2) + (number.testBit 0).toNat = number := by
        rw [Nat.toNat_testBit, Nat.pow_zero, Nat.div_one]
        omega
      rw [digits_succ, unsigned?_cons, ih upper, Option.map_some, split]

/-- Levels that are read as a number are its digits, by induction on the levels. -/
theorem eq_digits_of_unsigned? {levels : List Level} {number : Nat}
    (read : unsigned? levels = some number)
    : levels = digits number levels.length ∧ number < 2 ^ levels.length := by
  induction levels generalizing number with
  | nil =>
      obtain rfl : 0 = number := Option.some.inj read
      exact ⟨rfl, by decide⟩
  | cons level rest ih =>
      obtain ⟨bit, rfl⟩ : ∃ bit, level = ofBool bit := by
        cases level with
        | low => exact ⟨false, rfl⟩
        | high => exact ⟨true, rfl⟩
        | floating | unknown => cases read
      rw [unsigned?_cons] at read
      obtain ⟨upper, later, rfl⟩ := Option.map_eq_some_iff.mp read
      obtain ⟨same, fits⟩ := ih later
      have lowest : (2 * upper + bit.toNat).testBit 0 = bit := by
        cases bit <;> simp [Nat.testBit_zero]
      have half : (2 * upper + bit.toNat) / 2 = upper := by
        cases bit
        · simp
        · simp only [Bool.toNat_true]
          omega
      refine ⟨?_, ?_⟩
      · rw [List.length_cons, digits_succ, lowest, half, ← same]
      · have small : bit.toNat ≤ 1 := Bool.toNat_le bit
        rw [List.length_cons, Nat.pow_succ]
        omega

theorem digits_eq_map (number width : Nat)
    : digits number width = ((List.range width).map number.testBit).map ofBool := by
  rw [List.map_map]
  rfl

/-- Numbers that fit are the same if their digits are. -/
theorem testBits_beq {a b width : Nat} (left : a < 2 ^ width) (right : b < 2 ^ width)
    : ((List.range width).map a.testBit == (List.range width).map b.testBit) = (a == b) := by
  rw [Bool.eq_iff_iff, beq_iff_eq, beq_iff_eq]
  constructor
  · intro same
    have read := congrArg (fun bits => unsigned? (bits.map ofBool)) same
    simpa only [← digits_eq_map, unsigned?_digits left, unsigned?_digits right,
      Option.some.injEq] using read
  · rintro rfl
    rfl

-----------------------------------------------------------------------------------------
-- Comparison
-----------------------------------------------------------------------------------------

/-- Whether levels agree, position by position. -/
def agree (first second : List Level) : Level :=
  (List.zipWith (fun a b => (xor a b).not) first second).foldl and .high

/-- Low and high levels agree if they are the same, by induction on both. -/
theorem agree_ofBool {first second : List Bool} (length : first.length = second.length)
    : agree (first.map ofBool) (second.map ofBool) = ofBool (first == second) := by
  have gathered (sofar : Bool)
      : (List.zipWith (fun a b => (xor a b).not) (first.map ofBool) (second.map ofBool)).foldl and
          (ofBool sofar)
        = ofBool (sofar && first == second) := by
    induction first generalizing second sofar with
    | nil =>
        obtain rfl : second = [] := List.length_eq_zero_iff.mp length.symm
        simp
    | cons a first ih =>
        obtain ⟨b, second, rfl⟩ : ∃ b rest, second = b :: rest :=
          List.exists_cons_of_length_pos (by simp [← length])
        have next
            : and (ofBool sofar) ((xor (ofBool a) (ofBool b)).not)
              = ofBool (sofar && a == b) := by
          cases sofar <;> cases a <;> cases b <;> rfl
        rw [List.map_cons, List.map_cons, List.zipWith_cons_cons, List.foldl_cons, next,
          ih (by simpa using length)]
        simp [Bool.and_assoc]
  exact (gathered true).trans (by simp)

end Level

-----------------------------------------------------------------------------------------
-- Sized expressions
-----------------------------------------------------------------------------------------

namespace Expr

mutual
/-- Indices lie inside the names that they are put to, and operands are equally wide. -/
def isSized (valuation : Valuation) : Expr → Bool
  | .ref _ => true
  | .index name position => position < valuation.width name
  | .slice name high low => low ≤ high && high < valuation.width name
  | .const _ _ => true
  | .filled _ width => (width.value? valuation.generics).isSome
  | .concat parts => areSized valuation parts
  | .not source => isSized valuation source
  | .binary _ operands =>
      areSized valuation operands
      && operands.all (fun a =>
        operands.all (fun b => (a.eval valuation).length = (b.eval valuation).length))
  | .equals lhs rhs =>
      isSized valuation lhs && isSized valuation rhs
      && (lhs.eval valuation).length = (rhs.eval valuation).length

def areSized (valuation : Valuation) : List Expr → Bool
  | [] => true
  | expr :: rest => isSized valuation expr && areSized valuation rest
end

/-- Whether a condition holds. Neither is known of a condition that is not sized, or that is neither
low nor high.
-/
def holds? (valuation : Valuation) (condition : Expr) : Option Bool :=
  if condition.isSized valuation then
    match condition.eval valuation with
    | [.low] => some false
    | [.high] => some true
    | _ => none
  else none

/-- The value of the first arm whose condition holds; later conditions are not asked for. -/
def choose? (valuation : Valuation) (otherwise : Expr) : List (Expr × Expr) → Option Expr
  | [] => some otherwise
  | (condition, value) :: rest => do
      if ← condition.holds? valuation then some value else choose? valuation otherwise rest

end Expr

-----------------------------------------------------------------------------------------
-- Statements
-----------------------------------------------------------------------------------------

/-- The levels of a name, least significant first. -/
def Valuation.levels (valuation : Valuation) (name : String) : List Level :=
  (List.range (valuation.width name)).map (fun bit => valuation.level ⟨name, bit⟩)

/-- New levels at the given places. -/
def Valuation.set (valuation : Valuation) (bits : List (BitPlace × Level)) : Valuation :=
  { valuation with level := fun place => (bits.lookup place).getD (valuation.level place) }

/-- Assigns an expression to another one that is as wide and stands for places. -/
def Valuation.assign? (valuation : Valuation) (target value : Expr) : Option Valuation :=
  let places := target.places valuation.width
  let levels := value.eval valuation
  if target.isSized valuation && value.isSized valuation && !places.isEmpty
      && places.length = levels.length then
    some (valuation.set (places.zip levels))
  else none

/-- The arms of a selection, with the conditions that they stand for. -/
def Selection.decisions (selection : Selection) : List (Expr × Expr) :=
  selection.arms.map (fun arm =>
    (.equals (.ref selection.selector) (.const arm.1 selection.selectorWidth), arm.2))

/-- The valuation after a statement. What a register, an instance or hand-written text does is not
said here.
-/
def Statement.perform? (valuation : Valuation) : Statement → Option Valuation
  | .remark _ => some valuation
  | .blank => some valuation
  | .assign target value => valuation.assign? target value
  | .conditional target arms otherwise => do
      valuation.assign? target (← Expr.choose? valuation otherwise arms)
  | .select selection => do
      valuation.assign? (.ref selection.target)
        (← Expr.choose? valuation selection.otherwise selection.decisions)
  | .register _ => none
  | .instantiate _ => none
  | .raw _ => none

/-- The valuation after all statements, carried out in their order. -/
def Architecture.perform? (architecture : Architecture) (valuation : Valuation)
    : Option Valuation :=
  architecture.statements.foldlM Statement.perform? valuation

/-- The declared names of a unit under values of its generics, with any levels. -/
def DesignUnit.valuation (unit : DesignUnit) (generics : List (String × Nat))
    (level : BitPlace → Level)
    : Valuation where
  generics
  width := fun name => ((unit.scope generics).names.lookup name).getD 0
  level

-----------------------------------------------------------------------------------------
-- Assigned names
-----------------------------------------------------------------------------------------

namespace Valuation

/-- New levels for a name. -/
def put (valuation : Valuation) (name : String) (levels : List Level) : Valuation :=
  valuation.set (((Expr.ref name).places valuation.width).zip levels)

variable {valuation : Valuation} {name other : String} {levels : List Level}

@[simp] theorem put_width (valuation : Valuation) (name : String) (levels : List Level)
    : (valuation.put name levels).width = valuation.width :=
  rfl

@[simp] theorem length_levels (valuation : Valuation) (name : String)
    : (valuation.levels name).length = valuation.width name := by
  simp [Valuation.levels]

theorem getElem?_levels {bit : Nat} (inside : bit < valuation.width name)
    : (valuation.levels name)[bit]? = some (valuation.level ⟨name, bit⟩) := by
  simp [Valuation.levels, inside]

@[simp] theorem eval_ref (valuation : Valuation) (name : String)
    : (Expr.ref name).eval valuation = valuation.levels name := by
  rw [Expr.eval, Expr.places, List.map_map]
  rfl

/-- Another name keeps its levels. -/
theorem level_put_of_ne {place : BitPlace} (other : place.name ≠ name)
    : (valuation.put name levels).level place = valuation.level place := by
  have absent : (((Expr.ref name).places valuation.width).zip levels).lookup place = none := by
    refine List.lookup_eq_none_iff.mpr fun entry member => ?_
    have listed := (List.of_mem_zip member).1
    obtain ⟨bit, -, same⟩ := List.mem_map.mp listed
    rw [bne_iff_ne]
    rintro rfl
    exact other (same ▸ rfl)
  simp [put, set, absent]

theorem levels_put_of_ne (differs : other ≠ name)
    : (valuation.put name levels).levels other = valuation.levels other :=
  List.map_congr_left fun _ _ => level_put_of_ne differs

/-- A name takes as many levels as it is wide. -/
theorem levels_put (length : levels.length = valuation.width name)
    : (valuation.put name levels).levels name = levels := by
  refine List.ext_getElem (by simp [length]) fun bit inside there => ?_
  have listed
      : ((⟨name, bit⟩ : BitPlace), levels[bit])
        ∈ ((Expr.ref name).places valuation.width).zip levels := by
    refine List.mem_iff_getElem.mpr ⟨bit, ?_, ?_⟩
    · simp [Expr.places, ← length, there]
    · simp [Expr.places]
  have single (a b : Level)
      (first : ((⟨name, bit⟩ : BitPlace), a) ∈ ((Expr.ref name).places valuation.width).zip levels)
      (second : ((⟨name, bit⟩ : BitPlace), b) ∈ ((Expr.ref name).places valuation.width).zip levels)
      : a = b := by
    obtain ⟨i, here, first⟩ := List.mem_iff_getElem.mp first
    obtain ⟨j, there, second⟩ := List.mem_iff_getElem.mp second
    simp only [List.getElem_zip, Expr.places, List.getElem_map, List.getElem_range, Prod.mk.injEq,
      BitPlace.mk.injEq, true_and] at first second
    obtain ⟨rfl, rfl⟩ := first
    obtain ⟨rfl, rfl⟩ := second
    rfl
  have found := (Outcome.lookup_eq_some_iff_mem single).mpr listed
  simp [Valuation.levels, put, set, found]

/-- A name takes the levels of an expression that is as wide. -/
theorem assign?_ref {value : Expr} (sized : value.isSized valuation = true)
    (evaluates : value.eval valuation = levels) (length : levels.length = valuation.width name)
    (some : 0 < valuation.width name)
    : valuation.assign? (.ref name) value = .some (valuation.put name levels) := by
  have several : ((Expr.ref name).places valuation.width).isEmpty = false := by
    simpa [Expr.places, List.isEmpty_eq_false_iff] using Nat.pos_iff_ne_zero.mp some
  have sizes : ((Expr.ref name).places valuation.width).length = levels.length := by
    simp [Expr.places, length]
  simp [assign?, Expr.isSized, sized, several, evaluates, sizes, put]

end Valuation

-----------------------------------------------------------------------------------------
-- Conditions
-----------------------------------------------------------------------------------------

namespace Expr

variable {valuation : Valuation}

theorem eval_const (valuation : Valuation) (number width : Nat)
    : (const number width).eval valuation = Level.digits number width := by
  rw [eval]
  rfl

theorem holds?_eq_some {condition : Expr} {value : Bool}
    : condition.holds? valuation = some value
      ↔ condition.isSized valuation = true ∧ condition.eval valuation = [.ofBool value] := by
  unfold holds?
  split
  · next sized => split <;> cases value <;> simp_all [Level.ofBool]
  · next unsized => simp [unsized]

/-- A comparison of low and high levels holds if they are the same. -/
theorem holds?_equals {lhs rhs : Expr} {a b : List Bool} (left : lhs.isSized valuation = true)
    (right : rhs.isSized valuation = true) (first : lhs.eval valuation = a.map .ofBool)
    (second : rhs.eval valuation = b.map .ofBool) (length : a.length = b.length)
    : (equals lhs rhs).holds? valuation = some (a == b) := by
  refine holds?_eq_some.mpr ⟨?_, ?_⟩
  · simp [isSized, left, right, first, second, length]
  · rw [eval, first, second]
    exact congrArg (fun level => [level]) (Level.agree_ofBool length)

/-- A comparison of numbers of one width holds if they are the same. -/
theorem holds?_equals_digits {lhs rhs : Expr} {a b width : Nat}
    (left : lhs.isSized valuation = true) (right : rhs.isSized valuation = true)
    (first : lhs.eval valuation = Level.digits a width)
    (second : rhs.eval valuation = Level.digits b width) (inside : a < 2 ^ width)
    (fits : b < 2 ^ width)
    : (equals lhs rhs).holds? valuation = some (a == b) := by
  rw [Level.digits_eq_map] at first second
  rw [holds?_equals left right first second (by simp), Level.testBits_beq inside fits]

theorem holds?_equals_one {source : Expr} {value : Bool} (sized : source.isSized valuation = true)
    (known : source.eval valuation = [.ofBool value])
    : (equals source (bit .one)).holds? valuation = some value := by
  have single : source.eval valuation = [value].map .ofBool := known
  rw [holds?_equals (b := [true]) sized rfl single (eval_bit _ _) rfl]
  cases value <;> rfl

theorem holds?_equals_zero {source : Expr} {value : Bool} (sized : source.isSized valuation = true)
    (known : source.eval valuation = [.ofBool value])
    : (equals source (bit .zero)).holds? valuation = some !value := by
  have single : source.eval valuation = [value].map .ofBool := known
  rw [holds?_equals (b := [false]) sized rfl single (eval_bit _ _) rfl]
  cases value <;> rfl

theorem holds?_isHigh {name : String} {value : Bool}
    (known : valuation.levels name = [.ofBool value])
    : (isHigh name).holds? valuation = some value :=
  holds?_equals_one rfl ((Valuation.eval_ref _ _).trans known)

theorem holds?_isLow {name : String} {value : Bool}
    (known : valuation.levels name = [.ofBool value])
    : (isLow name).holds? valuation = some !value :=
  holds?_equals_zero rfl ((Valuation.eval_ref _ _).trans known)

theorem holds?_and {a b : Expr} {first second : Bool} (left : a.holds? valuation = some first)
    (right : b.holds? valuation = some second)
    : (binary .and [a, b]).holds? valuation = some (first && second) := by
  obtain ⟨leftSized, leftEval⟩ := holds?_eq_some.mp left
  obtain ⟨rightSized, rightEval⟩ := holds?_eq_some.mp right
  refine holds?_eq_some.mpr ⟨?_, ?_⟩
  · simp [isSized, areSized, leftSized, rightSized, leftEval, rightEval]
  · rw [eval, evalEach_eq, List.map_cons, List.map_cons, List.map_nil, leftEval, rightEval]
    cases first <;> cases second <;> rfl

/-- Arms whose conditions are all decided give the value of the first one that holds, by induction
on the arms.
-/
theorem choose?_map {ι : Type} {entries : List ι} {condition value : ι → Expr} {test : ι → Bool}
    {otherwise : Expr}
    (decided : ∀ entry ∈ entries, (condition entry).holds? valuation = some (test entry))
    : choose? valuation otherwise (entries.map (fun entry => (condition entry, value entry)))
      = some (((entries.find? test).map value).getD otherwise) := by
  induction entries with
  | nil => rfl
  | cons entry rest ih =>
      obtain ⟨head, tail⟩ := List.forall_mem_cons.mp decided
      rw [List.map_cons, choose?, head, List.find?_cons]
      cases test entry with
      | true => rfl
      | false => exact ih tail

end Expr

/-- A statement that chooses a value assigns it to a name of its width. -/
theorem Statement.perform?_conditional {valuation : Valuation} {name : String}
    {arms : List (Expr × Expr)} {otherwise value : Expr} {levels : List Level}
    (chosen : Expr.choose? valuation otherwise arms = some value)
    (sized : value.isSized valuation = true) (evaluates : value.eval valuation = levels)
    (length : levels.length = valuation.width name) (some : 0 < valuation.width name)
    : (conditional (.ref name) arms otherwise).perform? valuation
      = .some (valuation.put name levels) := by
  rw [perform?, chosen]
  exact Valuation.assign?_ref sized evaluates length some

/-- A statement that decides between two bits assigns one of them to a name of one bit. -/
theorem Statement.perform?_bits {valuation : Valuation} {name : String} {condition : Expr}
    {holds : Bool} (decided : condition.holds? valuation = some holds) {on off : Bit}
    (single : valuation.width name = 1)
    : (conditional (.ref name) [(condition, .bit on)] (.bit off)).perform? valuation
      = some (valuation.put name [.ofBit (if holds then on else off)]) := by
  have chosen
      : Expr.choose? valuation (.bit off) [(condition, .bit on)]
        = some (.bit (if holds then on else off)) := by
    rw [Expr.choose?, decided]
    cases holds <;> rfl
  exact perform?_conditional chosen rfl (Expr.eval_bit _ _) single.symm (by rw [single]; decide)

/-- A statement can show by the level of a name whether a condition holds. -/
theorem Statement.perform?_shows {valuation : Valuation} {name : String} {condition : Expr}
    {holds : Bool} (decided : condition.holds? valuation = some holds)
    (single : valuation.width name = 1)
    : (conditional (.ref name) [(condition, .bit .one)] (.bit .zero)).perform? valuation
      = some (valuation.put name [.ofBool holds]) := by
  rw [perform?_bits decided single]
  cases holds <;> rfl

/-- A selection is a conditional assignment of its decisions. -/
theorem Statement.perform?_select (valuation : Valuation) (selection : Selection)
    : (select selection).perform? valuation
      = (conditional (.ref selection.target) selection.decisions selection.otherwise).perform?
          valuation :=
  rfl

-----------------------------------------------------------------------------------------
-- Declared names
-----------------------------------------------------------------------------------------

/-- A name is as wide as it is declared, where the declarations of one name agree. -/
theorem DesignUnit.width_valuation {unit : DesignUnit} {generics : List (String × Nat)}
    {level : BitPlace → Level} {width : String → Nat}
    (each : ∀ declared ∈ (unit.scope generics).names, declared.2 = width declared.1) {name : String}
    (known : name ∈ (unit.scope generics).names.map Prod.fst)
    : (unit.valuation generics level).width name = width name := by
  obtain ⟨⟨name, bits⟩, listed, rfl⟩ := List.mem_map.mp known
  have single (a b : Nat) (first : (name, a) ∈ (unit.scope generics).names)
      (second : (name, b) ∈ (unit.scope generics).names)
      : a = b :=
    (each _ first).trans (each _ second).symm
  have found := (Outcome.lookup_eq_some_iff_mem single).mpr listed
  simp only [valuation, found, Option.getD_some]
  exact each _ listed

-----------------------------------------------------------------------------------------
-- Runs of statements
-----------------------------------------------------------------------------------------

/-- Both valuations give the same levels to all names but the given ones. -/
structure Valuation.SameOutside (names : List String) (before after : Valuation) : Prop where
  width_eq : after.width = before.width
  generics_eq : after.generics = before.generics
  level_eq : ∀ place, place.name ∉ names → after.level place = before.level place

namespace Valuation.SameOutside

variable {names : List String} {before after : Valuation}

theorem refl (names : List String) (valuation : Valuation)
    : valuation.SameOutside names valuation :=
  ⟨rfl, rfl, fun _ _ => rfl⟩

theorem put (same : before.SameOutside names after) {name : String} (within : name ∈ names)
    (levels : List Level)
    : before.SameOutside names (after.put name levels) where
  width_eq := same.width_eq
  generics_eq := same.generics_eq
  level_eq := by
    intro place outside
    have differs : place.name ≠ name := fun here => outside (here ▸ within)
    rw [level_put_of_ne differs, same.level_eq place outside]

theorem levels_eq (same : before.SameOutside names after) {name : String} (outside : name ∉ names)
    : after.levels name = before.levels name := by
  unfold Valuation.levels
  rw [same.width_eq]
  exact List.map_congr_left fun _ _ => same.level_eq _ outside

end Valuation.SameOutside

/-- Whatever the levels of the given names, an expression can be evaluated and has these levels. -/
def Expr.Steady (names : List String) (before : Valuation) (expr : Expr) (levels : List Level)
    : Prop :=
  ∀ valuation,
    before.SameOutside names valuation
    → expr.isSized valuation = true ∧ expr.eval valuation = levels

theorem Expr.steady_ref {names : List String} {name : String} (outside : name ∉ names)
    (before : Valuation)
    : (ref name).Steady names before (before.levels name) :=
  fun _ same => ⟨rfl, (Valuation.eval_ref _ _).trans (same.levels_eq outside)⟩

theorem Expr.steady_filled {names : List String} {before : Valuation} {declared : Width}
    {width : Nat} (known : declared.value? before.generics = some width) (bit : Bit)
    : (filled bit declared).Steady names before (List.replicate width (.ofBit bit)) := by
  intro valuation same
  rw [isSized, eval, same.generics_eq, known]
  exact ⟨rfl, rfl⟩

/-- Statements for different names that do not read what they assign are carried out one after the
other, each as from the start; by induction on the statements.
-/
theorem performs_each {ι : Type} {entries : List ι} {statement : ι → Statement}
    {name : ι → String} {levels : ι → List Level} {names : List String}
    {before valuation : Valuation}
    (distinct : (entries.map name).Nodup) (within : ∀ entry ∈ entries, name entry ∈ names)
    (each
      : ∀ entry ∈ entries,
          (levels entry).length = before.width (name entry)
          ∧ ∀ valuation,
              before.SameOutside names valuation
              → (statement entry).perform? valuation
                = some (valuation.put (name entry) (levels entry)))
    (start : before.SameOutside names valuation)
    : ∃ after,
        (entries.map statement).foldlM Statement.perform? valuation = some after
        ∧ (∀ entry ∈ entries, after.levels (name entry) = levels entry)
        ∧ ∀ other ∉ entries.map name, after.levels other = valuation.levels other := by
  induction entries generalizing valuation with
  | nil => exact ⟨valuation, rfl, by simp, fun _ _ => rfl⟩
  | cons entry rest ih =>
      obtain ⟨fresh, others⟩ := List.nodup_cons.mp distinct
      obtain ⟨here, later⟩ := List.forall_mem_cons.mp within
      obtain ⟨⟨length, performed⟩, remaining⟩ := List.forall_mem_cons.mp each
      obtain ⟨after, ends, assigned, kept⟩ :=
        ih others later remaining (start.put here (levels entry))
      refine ⟨after, ?_, List.forall_mem_cons.mpr ⟨?_, assigned⟩, ?_⟩
      · rw [List.map_cons, List.foldlM_cons, performed valuation start]
        exact ends
      · rw [kept _ fresh]
        exact Valuation.levels_put (length.trans (congrFun start.width_eq _).symm)
      · intro other outside
        obtain ⟨differs, beyond⟩ := not_or.mp (List.mem_cons.not.mp outside)
        rw [kept other beyond, Valuation.levels_put_of_ne differs]

end SchematicHdl.Hdl
