import SchematicHdl.Dialect

/-! Expressions of emitted statements, free of the language they are written in, and their text in
either language.
-/

namespace SchematicHdl.Hdl

/-- Bit width of a declared port or signal. -/
inductive Width where
  | fixed (bits : Nat)
  /-- Given by a generic of the enclosing design unit. -/
  | generic (name : String)
deriving DecidableEq, Repr

/-- One bit needs no generic; anything wider is declared through it. -/
def Width.sized (bits : Nat) (generic : String) : Width :=
  if bits > 1 then .generic generic else .fixed 1

inductive Bit where
  | zero
  | one
  | highZ
deriving DecidableEq, Repr

inductive BinaryOp where
  | and
  | or
  | xor
deriving DecidableEq, Repr

inductive Expr where
  | ref (name : String)
  | index (name : String) (position : Nat)
  | slice (name : String) (high low : Nat)
  | const (value width : Nat)
  /-- Every bit set to the same value. -/
  | filled (bit : Bit) (width : Width)
  /-- Most significant part first. -/
  | concat (parts : List Expr)
  | not (source : Expr)
  | binary (op : BinaryOp) (operands : List Expr)
  | equals (lhs rhs : Expr)
deriving Repr

namespace Expr

def bit (value : Bit) : Expr := .filled value (.fixed 1)

/-- Bits `high` down to `low` of a signal; a range of one bit is an index. -/
def range (name : String) (high low : Nat) : Expr :=
  if high = low then .index name low else .slice name high low

def isHigh (name : String) : Expr := .equals (.ref name) (bit .one)

def isLow (name : String) : Expr := .equals (.ref name) (bit .zero)

end Expr

/-- The digit of a bit. -/
def Bit.digit : Dialect → Bit → Char
  | _, .zero => '0'
  | _, .one => '1'
  | .vhdl, .highZ => 'Z'
  | .verilog, .highZ => 'z'

def BinaryOp.token (tokens : Tokens) : BinaryOp → String
  | .and => tokens.andOperator
  | .or => tokens.orOperator
  | .xor => tokens.xorOperator

/-- The low `width` binary digits of a number, most significant digit first. -/
def binaryDigits (value width : Nat) : String :=
  String.ofList ((List.range width).reverse.map (fun i => if value.testBit i then '1' else '0'))

def inParens (text : String) : String := "(" ++ text ++ ")"

def inBraces (text : String) : String := "\x7b" ++ text ++ "\x7d"

/-- The text of a constant. -/
def constText (dialect : Dialect) (value width : Nat) : String :=
  match dialect with
  | .vhdl =>
      if width = 1 then "'" ++ toString (value % 2) ++ "'"
      else "\"" ++ binaryDigits value width ++ "\""
  | .verilog => toString width ++ "'d" ++ toString value

/-- The text of a value whose bits are all the same. -/
def filledText (dialect : Dialect) (bit : Bit) (width : Width) : String :=
  let digit := String.singleton (bit.digit dialect)
  match dialect, width with
  | .vhdl, .fixed bits =>
      if bits = 1 then "'" ++ digit ++ "'"
      else "\"" ++ String.ofList (List.replicate bits (bit.digit dialect)) ++ "\""
  | .vhdl, .generic _ => "(OTHERS => '" ++ digit ++ "')"
  | .verilog, .fixed bits =>
      if bits = 1 then "1'b" ++ digit
      else
        match bit with
        | .zero => toString bits ++ "'d0"
        | .highZ => toString bits ++ "'bz"
        | .one => inBraces (toString bits ++ inBraces "1'b1")
  | .verilog, .generic name => inBraces (name ++ inBraces ("1'b" ++ digit))

namespace Expr

/-- Has to stand in parentheses where it is an operand. -/
def isCompound : Expr → Bool
  | .binary _ operands => operands.length > 1
  | .concat parts => parts.length > 1
  | _ => false

mutual
/-- The text of an expression. -/
def render (dialect : Dialect) : Expr → String
  | .ref name => name
  | .index name position =>
      name ++ dialect.tokens.openBracket ++ toString position ++ dialect.tokens.closeBracket
  | .slice name high low =>
      name ++ dialect.tokens.openBracket ++ toString high ++ dialect.tokens.rangeSeparator
        ++ toString low ++ dialect.tokens.closeBracket
  | .const value width => constText dialect value width
  | .filled bit width => filledText dialect bit width
  | .concat parts =>
      match dialect with
      | .vhdl => " & ".intercalate (renderOperands dialect parts)
      | .verilog => inBraces (", ".intercalate (renderParts dialect parts))
  | .not source => dialect.tokens.notOperator ++ inParens (render dialect source)
  | .binary op operands =>
      (" " ++ op.token dialect.tokens ++ " ").intercalate (renderOperands dialect operands)
  | .equals lhs rhs =>
      inParens
        (render dialect lhs ++ " " ++ dialect.tokens.equalsOperator ++ " " ++ render dialect rhs)

/-- The texts of expressions that stand alone. -/
def renderParts (dialect : Dialect) : List Expr → List String
  | [] => []
  | part :: rest => render dialect part :: renderParts dialect rest

/-- The texts of expressions that stand beside an operator. -/
def renderOperands (dialect : Dialect) : List Expr → List String
  | [] => []
  | operand :: rest =>
      (if operand.isCompound then inParens (render dialect operand) else render dialect operand)
        :: renderOperands dialect rest
end

end Expr

end SchematicHdl.Hdl
