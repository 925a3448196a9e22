/-! Character classes and line handling shared by the readers and writers. A blank is any
character with the White_Space property of Unicode; letters and letter case are those of ASCII,
because only ASCII letters can occur in an emitted identifier.
-/

namespace SchematicHdl.Text

/-- Code points with the White_Space property. -/
def blankCodes : List Nat :=
  [0x09, 0x0A, 0x0B, 0x0C, 0x0D, 0x20, 0x85, 0xA0, 0x1680,
   0x2000, 0x2001, 0x2002, 0x2003, 0x2004, 0x2005, 0x2006, 0x2007, 0x2008, 0x2009, 0x200A,
   0x2028, 0x2029, 0x202F, 0x205F, 0x3000]

def isBlank (c : Char) : Bool := blankCodes.contains c.toNat

def trimStart (cs : List Char) : List Char := cs.dropWhile isBlank

def trimEnd (cs : List Char) : List Char := (cs.reverse.dropWhile isBlank).reverse

/-- Drops the blanks on both sides. -/
def trim (cs : List Char) : List Char := trimEnd (trimStart cs)

/-- Nothing but blanks, or nothing at all. -/
def isAllBlank (s : String) : Bool := s.toList.all isBlank

/-- The spelling that decides whether two identifiers are the same: ASCII letters in lower
case, every other character as it is. -/
def foldCase (s : String) : String := String.ofList (s.toList.map Char.toLower)

/-- ASCII letters in upper case, every other character as it is. -/
def raiseCase (s : String) : String := String.ofList (s.toList.map Char.toUpper)

/-- The lines of a text. A line feed ends a line, so a text that ends in one has no empty last
line. -/
def lines : List Char → List (List Char)
  | [] => []
  | c :: rest =>
      if c = '\n' then
        [] :: lines rest
      else
        match lines rest with
        | [] => [[c]]
        | line :: others => (c :: line) :: others

/-- Decimal numbers between commas. -/
def commaSeparated (numbers : List Nat) : String :=
  ", ".intercalate (numbers.map toString)

end SchematicHdl.Text
