import SchematicHdl.Direction
import SchematicHdl.Hdl.Expr

/-! Design units: the header and the architecture of an emitted definition, free of the language
they are written in.
-/

namespace SchematicHdl.Hdl

inductive SignalKind where
  | wire
  /-- Assigned from a procedural block. -/
  | reg
deriving DecidableEq, Repr

structure SignalDecl where
  name : String
  width : Width
  kind : SignalKind
deriving DecidableEq, Repr

structure PortDecl where
  name : String
  direction : Direction
  width : Width
deriving DecidableEq, Repr

/-- What one formal port of an instance is bound to. -/
inductive Actual where
  | whole (expr : Expr)
  /-- One expression per formal bit, least significant bit first. -/
  | perBit (bits : List Expr)
  | unconnected
deriving Repr

structure PortMap where
  formal : String
  actual : Actual
deriving Repr

structure Instance where
  label : String
  /-- Name of the instantiated design unit. -/
  unit : String
  generics : List (String × Nat)
  ports : List PortMap
deriving Repr

/-- A register with asynchronous reset. It takes its next value on a rising clock edge while both
the tick and the enable input are high.
-/
structure RegisterUpdate where
  target : String
  width : Width
  clock : String
  reset : String
  tick : String
  enable : String
  next : Expr
deriving Repr

/-- A selection by the value of a selector. -/
structure Selection where
  target : String
  selector : String
  selectorWidth : Nat
  arms : List (Nat × Expr)
  otherwise : Expr
deriving Repr

inductive Statement where
  | remark (lines : List String)
  | blank
  | assign (target value : Expr)
  /-- The value of the first arm whose condition holds; each arm is a condition and a value. -/
  | conditional (target : Expr) (arms : List (Expr × Expr)) (otherwise : Expr)
  | select (selection : Selection)
  | register (update : RegisterUpdate)
  | instantiate (inst : Instance)
  /-- Hand-written text, copied line by line. -/
  | raw (text : String)
deriving Repr

def Statement.isBlank : Statement → Bool
  | .blank => true
  | _ => false

structure Architecture where
  signals : List SignalDecl
  statements : List Statement
deriving Repr

/-- A hand-written architecture. -/
def Architecture.raw (text : String) : Architecture := ⟨[], [.raw text]⟩

structure DesignUnit where
  name : String
  generics : List String
  ports : List PortDecl
  architecture : Architecture
deriving Repr

end SchematicHdl.Hdl
