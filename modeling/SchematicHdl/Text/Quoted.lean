import SchematicHdl.Text.Combining
import SchematicHdl.Text.Unprintable

/-! Texts between double quotes, spelled so that each of their characters can be told: whatever has
no shape of its own is written by its code.
-/

namespace SchematicHdl.Text

/-- The hexadecimal digits of a number, in lower case. -/
def hexDigits (n : Nat) : String := String.ofList (Nat.toDigits 16 n)

/-- The letter that stands for a character behind a backslash. -/
def escapeLetter? : Char → Option Char
  | '"' => some '"'
  | '\\' => some '\\'
  | '\n' => some 'n'
  | '\r' => some 'r'
  | '\t' => some 't'
  | '\x00' => some '0'
  | _ => none

/-- Cannot be told from its neighbours where it is written as it is. -/
def isShapeless (c : Char) : Bool := isCombining c || isUnprintable c

/-- A character inside quotes. -/
def quotedChar (c : Char) : String :=
  match escapeLetter? c with
  | some letter => String.ofList ['\\', letter]
  | none =>
      if isShapeless c then "\\u\x7b" ++ hexDigits c.toNat ++ "\x7d" else String.singleton c

/-- A text between quotes. -/
def quoted (s : String) : String := "\"" ++ String.join (s.toList.map quotedChar) ++ "\""

end SchematicHdl.Text
