/-! The part of TOML that a settings file can use: keys, strings, tables and empty arrays. No
setting has a value of another kind, so a text with any other value is refused like a malformed one.
-/

namespace SchematicHdl.Toml

-----------------------------------------------------------------------------------------
-- Values
-----------------------------------------------------------------------------------------

/-- How a table came to be, which decides what may still be added to it. -/
inductive TableKind where
  /-- Named on the way to a longer header. -/
  | implied
  /-- Opened by a header of its own. -/
  | header
  /-- Named on the way to a dotted key. -/
  | dotted
  /-- Written as a value; nothing can be added. -/
  | closed
deriving DecidableEq, Repr

inductive Value where
  | text (value : String)
  | emptyArray
  | table (kind : TableKind) (entries : List (String × Value))
deriving Repr

abbrev Entries := List (String × Value)

/-- Puts a value in place of the entry with its key, or behind all entries. -/
def replace (key : String) (value : Value) : Entries → Entries
  | [] => [(key, value)]
  | entry :: rest =>
      if entry.1 = key then (key, value) :: rest else entry :: replace key value rest

/-- Adds the value of a dotted key below a table. `isDotted` says that the table itself was named on
the way to a dotted key and `isFirst` that the key starts here; the two exclude each other.
-/
def addDotted (isFirst isDotted : Bool) (entries : Entries) (value : Value)
    : List String → Option Entries
  | [] => none
  | [key] =>
      if isFirst = isDotted || (entries.lookup key).isSome then none
      else some (entries ++ [(key, value)])
  | key :: rest =>
      match entries.lookup key with
      | none => do
          let below ← addDotted false true [] value rest
          return entries ++ [(key, .table .dotted below)]
      | some (.table .dotted below) => do
          let below ← addDotted false true below value rest
          return replace key (.table .dotted below) entries
      | some (.table .implied below) => do
          let below ← addDotted false false below value rest
          return replace key (.table .implied below) entries
      | some _ => none

/-- Opens the table of a header. -/
def openTable (entries : Entries) : List String → Option Entries
  | [] => none
  | [key] =>
      match entries.lookup key with
      | none => some (entries ++ [(key, .table .header [])])
      | some (.table .implied below) => some (replace key (.table .header below) entries)
      | some _ => none
  | key :: rest =>
      match entries.lookup key with
      | none => do
          let below ← openTable [] rest
          return entries ++ [(key, .table .implied below)]
      | some (.table .closed _) => none
      | some (.table kind below) => do
          let below ← openTable below rest
          return replace key (.table kind below) entries
      | some _ => none

/-- Adds the value of a key to the table that the last header opened. -/
def addBelow (entries : Entries) (keys : List String) (value : Value)
    : List String → Option Entries
  | [] => addDotted true false entries value keys
  | key :: rest =>
      match entries.lookup key with
      | some (.table kind below) => do
          let below ← addBelow below keys value rest
          return replace key (.table kind below) entries
      | _ => none

-----------------------------------------------------------------------------------------
-- Characters
-----------------------------------------------------------------------------------------

/-- A reader of some characters at the start of a text. -/
abbrev Scan := StateT (List Char) Option

def peek? : Scan (Option Char) := do return (← get).head?

def next : Scan Char := do
  match ← get with
  | [] => failure
  | c :: rest =>
      set rest
      return c

/-- Reads a fixed text where it comes next, and tells whether it did. -/
def accept (text : String) : Scan Bool := do
  let cs ← get
  if text.toList.isPrefixOf cs then
    set (cs.drop text.length)
    return true
  else
    return false

def expect (text : String) : Scan Unit := do
  if !(← accept text) then failure

def takeWhile (keep : Char → Bool) : Scan (List Char) := do
  let cs ← get
  set (cs.dropWhile keep)
  return cs.takeWhile keep

def isSpace (c : Char) : Bool := c = ' ' || c = '\t'

def skipSpaces : Scan Unit := discard (takeWhile isSpace)

/-- Reads a line end where one comes next, and tells whether one did. -/
def acceptNewline : Scan Bool := do
  if ← accept "\n" then return true
  accept "\r\n"

/-- Can stand in a comment or a string: no control character but the tab. -/
def isPrintable (c : Char) : Bool := c = '\t' || (0x20 ≤ c.toNat && c.toNat ≠ 0x7F)

def skipComment : Scan Unit := do
  if ← accept "#" then
    discard (takeWhile isPrintable)

def atEnd : Scan Bool := do return (← get).isEmpty

/-- Reads steps until one of them says that it was the last. Every other step reads a character,
so the characters left bound the number of steps.
-/
def untilDone {α : Type} (step : α → Scan (α × Bool)) : Nat → α → Scan α
  | 0, _ => failure
  | bound + 1, state => do
      let (state, isDone) ← step state
      if isDone then return state else untilDone step bound state

def loop {α : Type} (start : α) (step : α → Scan (α × Bool)) : Scan α := do
  untilDone step ((← get).length + 1) start

-----------------------------------------------------------------------------------------
-- Strings
-----------------------------------------------------------------------------------------

def hexDigit? (c : Char) : Option Nat :=
  if c.isDigit then some (c.toNat - '0'.toNat)
  else if 'a' ≤ c && c ≤ 'f' then some (c.toNat - 'a'.toNat + 10)
  else if 'A' ≤ c && c ≤ 'F' then some (c.toNat - 'A'.toNat + 10)
  else none

/-- Reads a character given by its hexadecimal code. -/
def codePoint : Nat → Nat → Scan Char
  | 0, code =>
      if code < 0xD800 || (0xE000 ≤ code && code < 0x110000) then return Char.ofNat code
      else failure
  | digits + 1, code => do
      match hexDigit? (← next) with
      | some digit => codePoint digits (16 * code + digit)
      | none => failure

/-- Reads what follows a backslash. -/
def escape : Scan Char := do
  match ← next with
  | 'b' => return '\x08'
  | 't' => return '\t'
  | 'n' => return '\n'
  | 'f' => return '\x0c'
  | 'r' => return '\r'
  | '"' => return '"'
  | '\\' => return '\\'
  | 'u' => codePoint 4 0
  | 'U' => codePoint 8 0
  | _ => failure

/-- The rest of a string on one line. Read characters are kept newest first. -/
def lineString (quote : Char) (hasEscapes : Bool) : Scan (List Char) :=
  loop [] (fun read => do
    let c ← next
    if c = quote then return (read, true)
    else if hasEscapes && c = '\\' then return ((← escape) :: read, false)
    else if isPrintable c then return (c :: read, false)
    else failure)

/-- Skips blank space with at least one line end in it. -/
def lineContinuation : Scan Unit := do
  skipSpaces
  if !(← acceptNewline) then failure
  discard (loop () (fun _ => do
    skipSpaces
    return ((), !(← acceptNewline))))

/-- Blanks and then a line end come next. -/
def isContinued : Scan Bool := do
  match (← get).dropWhile isSpace with
  | '\n' :: _ => return true
  | '\r' :: '\n' :: _ => return true
  | _ => return false

/-- The rest of a string of several lines. Up to two quotes may stand right in front of the closing
ones.
-/
def blockString (quote : Char) (hasEscapes : Bool) : Scan (List Char) := do
  discard acceptNewline
  loop [] (fun read => do
    if ← acceptNewline then return ('\n' :: read, false)
    let quotes ← takeWhile (· = quote)
    if 6 ≤ quotes.length then failure
    else if 3 ≤ quotes.length then return (quotes.drop 3 ++ read, true)
    else if !quotes.isEmpty then return (quotes ++ read, false)
    else
      let c ← next
      if hasEscapes && c = '\\' then
        if ← isContinued then
          lineContinuation
          return (read, false)
        else
          return ((← escape) :: read, false)
      else if isPrintable c then return (c :: read, false)
      else failure)

def ofNewestFirst (read : List Char) : String := String.ofList read.reverse

/-- A string value of any of the four kinds, where a quote comes next. -/
def stringValue? : Scan (Option String) := do
  if ← accept "\"\"\"" then return some (ofNewestFirst (← blockString '"' true))
  else if ← accept "'''" then return some (ofNewestFirst (← blockString '\'' false))
  else if ← accept "\"" then return some (ofNewestFirst (← lineString '"' true))
  else if ← accept "'" then return some (ofNewestFirst (← lineString '\'' false))
  else return none

-----------------------------------------------------------------------------------------
-- Keys and values
-----------------------------------------------------------------------------------------

def isBareKeyChar (c : Char) : Bool := c.isAlphanum || c = '_' || c = '-'

def simpleKey : Scan String := do
  if ← accept "\"" then return ofNewestFirst (← lineString '"' true)
  else if ← accept "'" then return ofNewestFirst (← lineString '\'' false)
  else
    let key ← takeWhile isBareKeyChar
    if key.isEmpty then failure else return String.ofList key

/-- Simple keys between points, and the blanks around them. -/
def dottedKey : Scan (List String) := do
  let newestFirst ←
    loop [] (fun keys => do
      skipSpaces
      let key ← simpleKey
      skipSpaces
      return (key :: keys, !(← accept ".")))
  return newestFirst.reverse

/-- The rest of an array, which has to be empty. -/
def emptyArray : Scan Unit := do
  discard (loop () (fun _ => do
    skipSpaces
    skipComment
    return ((), !(← acceptNewline))))
  expect "]"

/-- A value, in which tables are nested less than `depth` deep. -/
def value : Nat → Scan Value
  | 0 => failure
  | depth + 1 => do
      match ← stringValue? with
      | some text => return .text text
      | none =>
          if ← accept "[" then
            emptyArray
            return .emptyArray
          else
            expect "\x7b"
            skipSpaces
            if ← accept "\x7d" then
              return .table .closed []
            else
              let entries ←
                loop [] (fun entries => do
                  let keys ← dottedKey
                  expect "="
                  skipSpaces
                  let below ← value depth
                  skipSpaces
                  let entries ← addDotted true false entries below keys
                  if ← accept "," then return (entries, false)
                  expect "\x7d"
                  return (entries, true))
              return .table .closed entries

-----------------------------------------------------------------------------------------
-- Documents
-----------------------------------------------------------------------------------------

/-- The entries so far, and the header that keys belong to. -/
structure Document where
  entries : Entries
  header : List String
deriving Repr

/-- A header, a key with its value, or nothing. -/
def content (document : Document) : Scan Document := do
  skipSpaces
  match ← peek? with
  | some '[' =>
      expect "["
      let keys ← dottedKey
      expect "]"
      return ⟨← openTable document.entries keys, keys⟩
  | some c =>
      if c = '#' || c = '\n' || c = '\r' then return document
      else
        let keys ← dottedKey
        expect "="
        skipSpaces
        let found ← value (← get).length
        return { document with entries := ← addBelow document.entries keys found document.header }
  | none => return document

/-- The lines of a document. -/
def document : Scan Entries := do
  discard (accept "\ufeff")
  let whole ←
    loop ⟨[], []⟩ (fun soFar => do
      let soFar ← content soFar
      skipSpaces
      skipComment
      if ← acceptNewline then return (soFar, false)
      else if ← atEnd then return (soFar, true)
      else failure)
  return whole.entries

/-- The entries that a text holds. -/
def read? (text : String) : Option Entries :=
  match document.run text.toList with
  | some (entries, []) => some entries
  | _ => none

end SchematicHdl.Toml
