/-! The two output languages and the tokens in which they differ. -/

namespace SchematicHdl

/-- An output language. -/
inductive Dialect where
  | vhdl
  | verilog
deriving DecidableEq, Repr

/-- Tokens that both languages use in the same places with different spellings. -/
structure Tokens where
  openBracket : String
  closeBracket : String
  rangeSeparator : String
  assignment : String
  defaultCase : String
  comment : String
  notOperator : String
  andOperator : String
  orOperator : String
  xorOperator : String
  equalsOperator : String
deriving DecidableEq, Repr

namespace Dialect

def all : List Dialect := [.vhdl, .verilog]

def tokens : Dialect → Tokens
  | .vhdl =>
      {
        openBracket := "(",
        closeBracket := ")",
        rangeSeparator := " DOWNTO ",
        assignment := " <= ",
        defaultCase := "WHEN OTHERS",
        comment := "--",
        notOperator := "NOT",
        andOperator := "AND",
        orOperator := "OR",
        xorOperator := "XOR",
        equalsOperator := "="
      }
  | .verilog =>
      {
        openBracket := "[",
        closeBracket := "]",
        rangeSeparator := ":",
        assignment := " = ",
        defaultCase := "default:",
        comment := "//",
        notOperator := "~",
        andOperator := "&",
        orOperator := "|",
        xorOperator := "^",
        equalsOperator := "=="
      }

/-- Extension of the emitted files. -/
def fileExtension : Dialect → String
  | .vhdl => "vhd"
  | .verilog => "v"

/-- Lower case name, as it is written in settings, design files and directory names. -/
def shortName : Dialect → String
  | .vhdl => "vhdl"
  | .verilog => "verilog"

/-- Name used in messages. -/
def displayName : Dialect → String
  | .vhdl => "VHDL"
  | .verilog => "Verilog"

def ofShortName? : String → Option Dialect
  | "vhdl" => some .vhdl
  | "verilog" => some .verilog
  | _ => none

end Dialect

end SchematicHdl
