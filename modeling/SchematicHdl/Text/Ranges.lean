/-! Sets of characters, given by closed ranges of code points. -/

namespace SchematicHdl.Text

/-- Closed ranges of code points, by their first and last members. -/
abbrev Ranges := List (Nat × Nat)

namespace Ranges

def covers (ranges : Ranges) (code : Nat) : Bool :=
  ranges.any (fun range => range.1 ≤ code && code ≤ range.2)

/-- The ranges are in order, and between two of them there is a code point of neither. -/
def ascending : Ranges → Bool
  | [] => true
  | [range] => range.1 ≤ range.2
  | range :: next :: rest =>
      range.1 ≤ range.2 && range.2 + 1 < next.1 && ascending (next :: rest)

/-- The number of code points in ranges that do not overlap. -/
def count : Ranges → Nat
  | [] => 0
  | range :: rest => range.2 + 1 - range.1 + count rest

end Ranges

end SchematicHdl.Text
