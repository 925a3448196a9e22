import SchematicHdl.Text

/-! Identifiers that both output languages accept, and the respelling that turns any label into
one. A label that already is an identifier keeps its spelling; every other label is respelled and
gets a suffix, so labels with the same respelling are told apart by their suffixes.
-/

namespace SchematicHdl.Identifier

open Text

/-- Reserved words of VHDL. -/
def vhdlWords : List String :=
  ["abs", "access", "after", "alias", "all", "and", "architecture", "array", "assert",
   "attribute", "begin", "block", "body", "buffer", "bus", "case", "component", "configuration",
   "constant", "disconnect", "downto", "else", "elsif", "end", "entity", "exit", "file", "for",
   "function", "generate", "generic", "group", "guarded", "if", "impure", "in", "inertial",
   "inout", "is", "label", "library", "linkage", "literal", "loop", "map", "mod", "nand", "new",
   "next", "nor", "not", "null", "of", "on", "open", "or", "others", "out", "package", "port",
   "postponed", "procedure", "process", "pure", "range", "record", "register", "reject", "rem",
   "report", "return", "rol", "ror", "select", "severity", "signal", "shared", "sla", "sll",
   "sra", "srl", "subtype", "then", "to", "transport", "type", "unaffected", "units", "until",
   "use", "variable", "wait", "when", "while", "with", "xnor", "xor"]

/-- Reserved words of Verilog that are not also reserved in VHDL. -/
def verilogWords : List String :=
  ["always", "assign", "automatic", "buf", "bufif0", "bufif1", "casex", "casez", "cell",
   "cmos", "config", "deassign", "default", "defparam", "design", "disable", "edge",
   "endcase", "endconfig", "endfunction", "endgenerate", "endmodule", "endprimitive",
   "endspecify", "endtable", "endtask", "event", "force", "forever", "fork", "genvar",
   "highz0", "highz1", "ifnone", "incdir", "include", "initial", "input", "instance", "integer",
   "join", "large", "liblist", "localparam", "macromodule", "medium", "module", "negedge",
   "nmos", "noshowcancelled", "notif0", "notif1", "output", "parameter", "pmos", "posedge",
   "primitive", "pull0", "pull1", "pulldown", "pullup", "pulsestyle_onevent",
   "pulsestyle_ondetect", "rcmos", "real", "realtime", "reg", "release", "repeat", "rnmos",
   "rpmos", "rtran", "rtranif0", "rtranif1", "scalared", "showcancelled", "signed", "small",
   "specify", "specparam", "strong0", "strong1", "supply0", "supply1", "table", "task", "time",
   "tran", "tranif0", "tranif1", "tri", "tri0", "tri1", "triand", "trior", "trireg", "unsigned",
   "vectored", "wand", "weak0", "weak1", "wire", "wor"]

/-- Reserved in either language, whatever its letter case. -/
def isReserved (label : String) : Bool :=
  (vhdlWords ++ verilogWords).contains (foldCase label)

/-- An ASCII letter, an ASCII digit or an underscore. -/
def isWordChar (c : Char) : Bool := c.isAlphanum || c = '_'

def startsWithLetter : List Char → Bool
  | [] => false
  | c :: _ => c.isAlpha

/-- Two underscores in a row occur somewhere. -/
def hasDoubleUnderscore : List Char → Bool
  | [] => false
  | c :: rest => (c = '_' && rest.head? = some '_') || hasDoubleUnderscore rest

/-- Usable in emitted text as it stands: a letter, then word characters, with no double and no
trailing underscore, and not reserved. -/
def isValid (label : String) : Bool :=
  let cs := label.toList
  startsWithLetter cs && cs.all isWordChar && !(cs.getLast? = some '_')
    && !hasDoubleUnderscore cs && !isReserved label

/-- Spells each negation mark out as `NOT_` and drops the blanks behind it. The flag says that
the last character kept was a negation mark. -/
def spellNegation (afterMark : Bool) : List Char → List Char
  | [] => []
  | c :: rest =>
      if c = '!' || c = '~' then
        ['N', 'O', 'T', '_'] ++ spellNegation true rest
      else if afterMark && isBlank c then
        spellNegation true rest
      else
        c :: spellNegation false rest

/-- Turns every character that is no word character into an underscore and keeps one underscore
of each run. The flag says that the last character kept was an underscore. -/
def squeeze (afterUnderscore : Bool) : List Char → List Char
  | [] => []
  | c :: rest =>
      if c = '_' || !isWordChar c then
        if afterUnderscore then squeeze true rest else '_' :: squeeze true rest
      else
        c :: squeeze false rest

def dropTrailingUnderscores (cs : List Char) : List Char :=
  (cs.reverse.dropWhile (· = '_')).reverse

/-- A suffix reduced to word characters with no underscore on either side. -/
def cleanSuffix (suffix : List Char) : List Char :=
  dropTrailingUnderscores ((squeeze false (trim suffix)).dropWhile (· = '_'))

/-- Puts the letter mark in front of a text that does not start with a letter. -/
def ensureLetter (cs : List Char) : List Char :=
  if startsWithLetter cs then cs else 'L' :: '_' :: cs

/-- The respelled label before it gets a suffix. -/
def respelled (trimmed : List Char) : List Char :=
  dropTrailingUnderscores (squeeze false (ensureLetter (spellNegation false trimmed)))

/-- An identifier for a label. A label that is respelled or reserved is marked with the suffix; a
reserved label for which there is no suffix gets the letter mark instead. -/
def sanitize (label suffix : String) : String :=
  let trimmed := trim label.toList
  let body := respelled trimmed
  let mark := cleanSuffix suffix.toList
  if body ≠ trimmed then
    String.ofList (if mark.isEmpty then body else body ++ '_' :: mark)
  else if isReserved (String.ofList body) then
    String.ofList (if mark.isEmpty then 'L' :: '_' :: body else body ++ '_' :: mark)
  else
    String.ofList body

/-- An identifier for the label of an object that is told apart by its position. -/
def ofLabel (label : String) (position : Nat) : String := sanitize label (toString position)

end SchematicHdl.Identifier
