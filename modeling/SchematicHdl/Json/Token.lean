import SchematicHdl.Json.Number

/-! The tokens of a JSON text. A finite automaton reads the text one character at a time; a text
that is no sequence of tokens is refused.
-/

namespace SchematicHdl.Json

inductive Token where
  | openList
  | closeList
  | openRecord
  | closeRecord
  | comma
  | colon
  /-- A string or a word: whatever stands for a value by itself. -/
  | scalar (value : Json)
deriving Repr

/-- The value of a bare word. -/
def wordValue? (word : List Char) : Option Json :=
  if word = "null".toList then some .null
  else if word = "true".toList then some (.flag true)
  else if word = "false".toList then some (.flag false)
  else (readNumeral? word).bind Numeral.value?

/-- What is being read. Characters already read of a word or string are kept newest first. -/
inductive Reading where
  | between
  | word (read : List Char)
  | string (read : List Char)
  | escape (read : List Char)
  /-- Inside a numeric escape. `high` is the first half of a surrogate pair. -/
  | codeUnit (read : List Char) (digitsLeft code : Nat) (high : Option Nat)
  /-- Behind the first half of a surrogate pair: an escape has to follow. -/
  | lowHalf (read : List Char) (high : Nat)
  | lowEscape (read : List Char) (high : Nat)
deriving Repr

structure Scanner where
  /-- Tokens already read, newest first. -/
  done : List Token
  reading : Reading

def isJsonBlank (c : Char) : Bool := c = ' ' || c = '\t' || c = '\n' || c = '\r'

def punctuation? : Char → Option Token
  | '[' => some .openList
  | ']' => some .closeList
  | '\x7b' => some .openRecord
  | '\x7d' => some .closeRecord
  | ',' => some .comma
  | ':' => some .colon
  | _ => none

/-- The character that a short escape stands for. -/
def shortEscape? : Char → Option Char
  | '"' => some '"'
  | '\\' => some '\\'
  | '/' => some '/'
  | 'b' => some '\x08'
  | 'f' => some '\x0c'
  | 'n' => some '\n'
  | 'r' => some '\r'
  | 't' => some '\t'
  | _ => none

def hexDigit? (c : Char) : Option Nat :=
  if c.isDigit then some (c.toNat - '0'.toNat)
  else if 'a' ≤ c && c ≤ 'f' then some (c.toNat - 'a'.toNat + 10)
  else if 'A' ≤ c && c ≤ 'F' then some (c.toNat - 'A'.toNat + 10)
  else none

/-- The text goes on with `c` outside of any word or string. -/
def scanBetween? (done : List Token) (c : Char) : Option Scanner :=
  if isJsonBlank c then some ⟨done, .between⟩
  else if c = '"' then some ⟨done, .string []⟩
  else
    match punctuation? c with
    | some token => some ⟨token :: done, .between⟩
    | none => some ⟨done, .word [c]⟩

/-- Ends a word. -/
def endWord? (done : List Token) (read : List Char) : Option (List Token) :=
  (wordValue? read.reverse).map (fun value => .scalar value :: done)

/-- A complete numeric escape: a character, the first half of a surrogate pair, or its second
half. -/
def endCodeUnit? (done : List Token) (read : List Char) (code : Nat) (high : Option Nat)
    : Option Scanner :=
  match high with
  | none =>
      if 0xD800 ≤ code && code < 0xDC00 then some ⟨done, .lowHalf read code⟩
      else if 0xDC00 ≤ code && code < 0xE000 then none
      else some ⟨done, .string (Char.ofNat code :: read)⟩
  | some first =>
      if 0xDC00 ≤ code && code < 0xE000 then
        let combined := 0x10000 + (first - 0xD800) * 0x400 + (code - 0xDC00)
        some ⟨done, .string (Char.ofNat combined :: read)⟩
      else none

def scanChar? (scanner : Scanner) (c : Char) : Option Scanner :=
  let done := scanner.done
  match scanner.reading with
  | .between => scanBetween? done c
  | .word read =>
      if isJsonBlank c || c = '"' || (punctuation? c).isSome then
        (endWord? done read).bind (fun tokens => scanBetween? tokens c)
      else some ⟨done, .word (c :: read)⟩
  | .string read =>
      if c = '"' then
        some ⟨.scalar (.text (String.ofList read.reverse)) :: done, .between⟩
      else if c = '\\' then some ⟨done, .escape read⟩
      else if c.toNat < 0x20 then none
      else some ⟨done, .string (c :: read)⟩
  | .escape read =>
      if c = 'u' then some ⟨done, .codeUnit read 4 0 none⟩
      else (shortEscape? c).map (fun escaped => ⟨done, .string (escaped :: read)⟩)
  | .codeUnit read digitsLeft code high =>
      match hexDigit? c with
      | none => none
      | some digit =>
          if digitsLeft ≤ 1 then endCodeUnit? done read (16 * code + digit) high
          else some ⟨done, .codeUnit read (digitsLeft - 1) (16 * code + digit) high⟩
  | .lowHalf read high => if c = '\\' then some ⟨done, .lowEscape read high⟩ else none
  | .lowEscape read high => if c = 'u' then some ⟨done, .codeUnit read 4 0 (some high)⟩ else none

/-- The tokens of a text. -/
def tokens? (text : List Char) : Option (List Token) := do
  let scanner ← text.foldlM scanChar? ⟨[], .between⟩
  match scanner.reading with
  | .between => some scanner.done.reverse
  | .word read => (endWord? scanner.done read).map List.reverse
  | _ => none

end SchematicHdl.Json
