import SchematicHdl.Json.Value

/-! Numbers in a JSON text. A whole number of 64 bits is kept; any other number only has to be
finite as a double. That double is reckoned in two steps, which both round: the leading digits that
fit into 64 bits make a double, and this is multiplied by the double nearest to the power of ten. So
it need not be the double nearest to the number itself.
-/

namespace SchematicHdl.Json

def digitValue (c : Char) : Nat := c.toNat - '0'.toNat

def digitsValue (digits : List Char) : Nat :=
  digits.foldl (fun value c => 10 * value + digitValue c) 0

/-- Appends digits to a significand up to the first that does not fit; that one and all behind it
are left over.
-/
def takeDigits (significand : Nat) : List Char → Nat × List Char
  | [] => (significand, [])
  | c :: rest =>
      let longer := 10 * significand + digitValue c
      if longer < numberLimit then takeDigits longer rest else (significand, c :: rest)

/-- Digits with no superfluous zero in front. -/
def isCanonicalWhole : List Char → Bool
  | [] => false
  | ['0'] => true
  | c :: _ => c ≠ '0'

/-- The natural number with a significand of 53 bits that is nearest to a natural number; of two
that are equally near, the one with the even significand.
-/
def nearestDouble (n : Nat) : Nat :=
  let unit := Nat.pow 2 (Nat.log2 n - 52)
  let below := n / unit
  let rest := n % unit
  if unit < 2 * rest || (unit = 2 * rest && below % 2 = 1) then (below + 1) * unit
  else below * unit

/-- One past the exponents of powers of two that a double can hold. -/
def doubleExponentLimit : Nat := 1024

/-- The largest power of ten that a double can hold. -/
def maxPowerOfTen : Nat := 308

/-- A number as far as it counts: `significand` times ten to the power of `exponent`. -/
structure Numeral where
  negative : Bool
  /-- Made of the leading digits that fit into 64 bits. -/
  significand : Nat
  exponent : Int
  /-- Written without fraction and exponent, with no digit left out. -/
  isWhole : Bool
deriving Repr

/-- What follows the point: the fraction digits and the rest. Without a point there are none. -/
def readFraction? : List Char → Option (List Char × List Char)
  | '.' :: rest =>
      let digits := rest.takeWhile Char.isDigit
      if digits.isEmpty then none else some (digits, rest.dropWhile Char.isDigit)
  | rest => some ([], rest)

/-- The exponent, which ends the number; `none` inside says that there is none. -/
def readExponent? : List Char → Option (Option Int)
  | [] => some none
  | c :: rest =>
      if c = 'e' || c = 'E' then
        let (negative, digits) :=
          match rest with
          | '-' :: digits => (true, digits)
          | '+' :: digits => (false, digits)
          | digits => (false, digits)
        if digits.isEmpty || !digits.all Char.isDigit then none
        else
          let size : Int := digitsValue digits
          some (some (if negative then -size else size))
      else none

/-- Digits of the whole part that are left out still count for the exponent. Fraction digits can be
taken even behind them, as long as they fit.
-/
def readNumeral? (word : List Char) : Option Numeral := do
  let (negative, body) :=
    match word with
    | '-' :: body => (true, body)
    | body => (false, body)
  let whole := body.takeWhile Char.isDigit
  if !isCanonicalWhole whole then none
  else
    let (fraction, rest) ← readFraction? (body.dropWhile Char.isDigit)
    let exponent ← readExponent? rest
    let (wholeTaken, wholeLeft) := takeDigits 0 whole
    let (significand, fractionLeft) := takeDigits wholeTaken fraction
    let scale : Int := (wholeLeft.length : Int) - (fraction.length - fractionLeft.length : Nat)
    some
      {
        negative,
        significand,
        exponent := exponent.getD 0 + scale,
        isWhole := wholeLeft.isEmpty && fraction.isEmpty && exponent.isNone
      }

/-- The double that is reckoned for the number is finite. No negative power of ten makes a double
that is not.
-/
def Numeral.isFinite (numeral : Numeral) : Bool :=
  if numeral.significand = 0 || numeral.exponent ≤ 0 then true
  else if numeral.exponent > maxPowerOfTen then false
  else
    let scale := nearestDouble (Nat.pow 10 numeral.exponent.toNat)
    nearestDouble (nearestDouble numeral.significand * scale) < Nat.pow 2 doubleExponentLimit

def Numeral.value? (numeral : Numeral) : Option Json :=
  if numeral.isWhole && !numeral.negative then some (.number numeral.significand)
  else if numeral.isFinite then some .otherNumber
  else none

end SchematicHdl.Json
