import SchematicHdl.Realization.Form
import SchematicHdl.Text.Quoted

/-! The spelling in which messages show where a port takes its value from: each alternative by its
name, followed by its arguments in parentheses or its named parts in braces.
-/

namespace SchematicHdl

open Hdl (BinaryOp Bit Expr Width)

namespace Display

def call (name : String) (argument : String) : String := name ++ "(" ++ argument ++ ")"

def parts (name : String) (fields : List (String × String)) : String :=
  name ++ " \x7b " ++ ", ".intercalate (fields.map (fun field => field.1 ++ ": " ++ field.2))
    ++ " \x7d"

def sequence (items : List String) : String := "[" ++ ", ".intercalate items ++ "]"

end Display

def Hdl.Bit.display : Bit → String
  | .zero => "Zero"
  | .one => "One"
  | .highZ => "HighZ"

def Hdl.BinaryOp.display : BinaryOp → String
  | .and => "And"
  | .or => "Or"
  | .xor => "Xor"

def Hdl.Width.display : Width → String
  | .fixed bits => Display.call "Fixed" (toString bits)
  | .generic name => Display.call "Generic" (Text.quoted name)

mutual
def Hdl.Expr.display : Expr → String
  | .ref name => Display.call "Ref" (Text.quoted name)
  | .index name position =>
      Display.parts "Index" [("name", Text.quoted name), ("index", toString position)]
  | .slice name high low =>
      Display.parts "Slice"
        [("name", Text.quoted name), ("high", toString high), ("low", toString low)]
  | .const value width =>
      Display.parts "Const" [("value", toString value), ("width", toString width)]
  | .filled bit width => Display.parts "Filled" [("bit", bit.display), ("width", width.display)]
  | .concat operands => Display.call "Concat" (Display.sequence (displayAll operands))
  | .not source => Display.call "Not" source.display
  | .binary op operands =>
      Display.parts "BinOp"
        [("op", op.display), ("operands", Display.sequence (displayAll operands))]
  | .equals lhs rhs => Display.parts "Eq" [("lhs", lhs.display), ("rhs", rhs.display)]

def Hdl.Expr.displayAll : List Expr → List String
  | [] => []
  | expr :: rest => expr.display :: displayAll rest
end

def directionWord : Direction → String
  | .input => "Input"
  | .output => "Output"
  | .inout => "Inout"

def PortSource.display : PortSource → String
  | .whole endIndex => Display.call "End" (toString endIndex)
  | .bitwise ends => Display.call "Ends" (Display.sequence (ends.map toString))
  | .clockOf endIndex => Display.call "ClockOf" (toString endIndex)
  | .tickOf endIndex => Display.call "TickOf" (toString endIndex)
  | .bubbles bus => Display.call "Bubbles" (directionWord bus)
  | .fixed expr => Display.call "Fixed" expr.display

end SchematicHdl
