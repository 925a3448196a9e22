import SchematicHdl.Hdl.Page
import SchematicHdl.Hdl.Unit
import SchematicHdl.Text

/-! The text of statements and design units in either language. -/

namespace SchematicHdl.Hdl

open Page

/-- Columns that a bar spans. -/
def barWidth : Nat := 78

/-- A comment line filled with one character. -/
def bar (dialect : Dialect) (fill : Char) : String :=
  let comment := dialect.tokens.comment
  comment ++ String.ofList (List.replicate (barWidth - comment.length) fill)

/-- The type of a port or signal. A width of no bits has no last index. -/
def vhdlType [Arithmetic] : Width → Except Overflow String
  | .fixed bits =>
      if bits = 1 then .ok "std_logic"
      else do return s!"std_logic_vector( {← Word.subtract bits 1} DOWNTO 0 )"
  | .generic name => .ok s!"std_logic_vector( {name}-1 DOWNTO 0 )"

/-- The range in front of a name. A width of no bits has no last index. -/
def verilogRange [Arithmetic] : Width → Except Overflow String
  | .fixed bits =>
      if bits = 1 then .ok "" else do return s!"[{← Word.subtract bits 1}:0] "
  | .generic name => .ok s!"[{name}-1:0] "

def vhdlDirection : Direction → String
  | .input => "IN"
  | .output => "OUT"
  | .inout => "INOUT"

def verilogKind : SignalKind → String
  | .wire => "wire"
  | .reg => "reg"

/-- The head of an assignment, up to the value. -/
def assignHead (dialect : Dialect) (target : Expr) : String :=
  let keyword := match dialect with
    | .vhdl => ""
    | .verilog => "assign "
  keyword ++ target.render dialect ++ dialect.tokens.assignment

def writeRemark (dialect : Dialect) (remark : List String) : PageM Unit := do
  line (bar dialect '-')
  lines (remark.map (fun text => dialect.tokens.comment ++ " " ++ text))
  line (bar dialect '-')

/-- One arm of a conditional assignment. -/
def armText (dialect : Dialect) (arm : Expr × Expr) : String :=
  let condition := arm.1.render dialect
  let value := arm.2.render dialect
  match dialect with
  | .vhdl => s!"{value} WHEN {condition} ELSE"
  | .verilog => s!"{condition} ? {value} :"

def writeConditional [Arithmetic] (dialect : Dialect) (target : Expr) (arms : List (Expr × Expr))
    (otherwise : Expr) : PageM Unit :=
  let head := assignHead dialect target
  let last := otherwise.render dialect ++ ";"
  match arms with
  | [] => line (head ++ last)
  | first :: rest => do
      line (head ++ armText dialect first)
      indented do
        lines (rest.map (armText dialect))
        line last

def writeSelection [Arithmetic] (dialect : Dialect) (selection : Selection) : PageM Unit :=
  let target := selection.target
  let caseText := fun value => (Expr.const value selection.selectorWidth).render dialect
  let otherwise := selection.otherwise.render dialect
  let defaultCase := dialect.tokens.defaultCase
  match dialect with
  | .vhdl => do
      line s!"WITH ({selection.selector}) SELECT {target} <="
      indented do
        lines (selection.arms.map (fun (value, expr) =>
          expr.render dialect ++ " WHEN " ++ caseText value ++ ","))
        line s!"{otherwise} {defaultCase};"
  | .verilog => do
      line "always @(*)"
      indented do
        line s!"case ({selection.selector})"
        indented do
          lines (selection.arms.map (fun (value, expr) =>
            caseText value ++ ": " ++ target ++ " = " ++ expr.render dialect ++ ";"))
          line s!"{defaultCase} {target} = {otherwise};"
        line "endcase"

def writeRegister [Arithmetic] (dialect : Dialect) (update : RegisterUpdate) : PageM Unit :=
  let target := update.target
  let zero := (Expr.filled .zero update.width).render dialect
  let next := update.next.render dialect
  match dialect with
  | .vhdl => do
      line s!"make_{target} : PROCESS( {update.clock}, {update.reset} )"
      line "BEGIN"
      indented do
        line ("IF (" ++ update.reset ++ " = '1') THEN")
        indented (line s!"{target} <= {zero};")
        line s!"ELSIF (rising_edge({update.clock})) THEN"
        indented do
          line ("IF (" ++ update.tick ++ " = '1' AND " ++ update.enable ++ " = '1') THEN")
          indented (line s!"{target} <= {next};")
          line "END IF;"
        line "END IF;"
      line s!"END PROCESS make_{target};"
  | .verilog => do
      line s!"always @(posedge {update.clock} or posedge {update.reset})"
      line "begin"
      indented do
        line ("if (" ++ update.reset ++ " == 1'b1)")
        indented (line s!"{target} <= {zero};")
        line ("else if ((" ++ update.tick ++ " == 1'b1) & (" ++ update.enable ++ " == 1'b1))")
        indented (line s!"{target} <= {next};")
      line "end"

/-- Copies hand-written text without the blanks at the ends of its lines. -/
def writeRaw (text : String) : PageM Unit :=
  (Text.lines text.toList).forM (fun content =>
    match Text.trimEnd content with
    | [] => newline
    | kept => line (String.ofList kept))

/-- The associations of one formal port. -/
def portAssociations (dialect : Dialect) (label : String) (port : PortMap)
    : Except GenerationError (List String) :=
  let formal := port.formal
  match port.actual, dialect with
  | .whole expr, .vhdl => .ok [s!"{formal} => {expr.render dialect}"]
  | .whole expr, .verilog => .ok [s!".{formal}({expr.render dialect})"]
  | .unconnected, .vhdl => .ok [s!"{formal} => OPEN"]
  | .unconnected, .verilog => .ok [s!".{formal}()"]
  | .perBit [], _ => .error (.internal (.emptyBitMap formal label))
  | .perBit bits, .vhdl =>
      .ok (bits.zipIdx.map (fun (bit, i) => s!"{formal}({i}) => {bit.render dialect}"))
  | .perBit bits, .verilog => .ok [s!".{formal}({(Expr.concat bits.reverse).render dialect})"]

/-- The associations of all formal ports. -/
def instanceAssociations (dialect : Dialect) (inst : Instance)
    : Except GenerationError (List String) := do
  return (← inst.ports.mapM (portAssociations dialect inst.label)).flatten

def genericAssociation (dialect : Dialect) (generic : String × Nat) : String :=
  match dialect with
  | .vhdl => s!"{generic.1} => {generic.2}"
  | .verilog => s!".{generic.1}({generic.2})"

def writeVhdlInstance [Arithmetic] (inst : Instance) (generics ports : List String)
    : PageM Unit := do
  let head := s!"{inst.label} : ENTITY work.{inst.unit}"
  if generics.isEmpty && ports.isEmpty then
    line (head ++ ";")
  else
    line head
    indented do
      if !generics.isEmpty then
        line "GENERIC MAP ("
        indented (separatedLines "," generics)
        line (if ports.isEmpty then ");" else ")")
      if !ports.isEmpty then
        line "PORT MAP ("
        indented (separatedLines "," ports)
        line ");"

def writeVerilogInstance [Arithmetic] (inst : Instance) (generics ports : List String)
    : PageM Unit := do
  if generics.isEmpty then
    line s!"{inst.unit} {inst.label} ("
  else
    line s!"{inst.unit} #("
    indented (separatedLines "," generics)
    line s!") {inst.label} ("
  indented (separatedLines "," ports)
  line ");"

/-- Writes an instance. All associations are formed first, so a failing instance writes
nothing. -/
def writeInstance [Arithmetic] (dialect : Dialect) (inst : Instance) : PageM Unit := do
  let ports ← MonadExcept.ofExcept (instanceAssociations dialect inst)
  let generics := inst.generics.map (genericAssociation dialect)
  match dialect with
  | .vhdl => writeVhdlInstance inst generics ports
  | .verilog => writeVerilogInstance inst generics ports

def writeStatement [Arithmetic] (dialect : Dialect) : Statement → PageM Unit
  | .remark remark => writeRemark dialect remark
  | .blank => newline
  | .assign target value => line (assignHead dialect target ++ value.render dialect ++ ";")
  | .conditional target arms otherwise => writeConditional dialect target arms otherwise
  | .select selection => writeSelection dialect selection
  | .register update => writeRegister dialect update
  | .instantiate inst => writeInstance dialect inst
  | .raw text => writeRaw text

/-- The last statement asks for an empty line behind it. -/
def wantsNewline (statements : List Statement) : Bool :=
  match statements.getLast? with
  | some last => !last.isBlank
  | none => false

def writeStatements [Arithmetic] (dialect : Dialect) (statements : List Statement)
    : PageM Unit := do
  indented (statements.forM (writeStatement dialect))
  if wantsNewline statements then
    newline

def writeHeader (dialect : Dialect) (name : String) : PageM Unit := do
  let comment := dialect.tokens.comment
  line (bar dialect '=')
  line (comment ++ "== Generated by hdlgen, do not edit")
  line (comment ++ "== Component : " ++ name)
  line (bar dialect '=')
  newline

def vhdlGeneric (generic : String) : Except Overflow String := .ok s!"{generic} : INTEGER"

def vhdlPort [Arithmetic] (port : PortDecl) : Except Overflow String := do
  return s!"{port.name} : {vhdlDirection port.direction} {← vhdlType port.width}"

def vhdlSignal [Arithmetic] (signal : SignalDecl) : Except Overflow String := do
  return s!"SIGNAL {signal.name} : {← vhdlType signal.width};"

def verilogPort [Arithmetic] (port : PortDecl) : Except Overflow String := do
  return s!"{port.direction.name} wire {← verilogRange port.width}{port.name}"

def verilogSignal [Arithmetic] (signal : SignalDecl) : Except Overflow String := do
  return s!"{verilogKind signal.kind} {← verilogRange signal.width}{signal.name};"

/-- Writes items one per line, separated. All of them are formed before the first line. -/
def writeItems {α : Type} (separator : String) (form : α → Except Overflow String) (items : List α)
    : PageM Unit := do
  separatedLines separator (← computed (items.mapM form))

/-- A list in parentheses behind a keyword, unless it is empty. -/
def writeClause [Arithmetic] {α : Type} (keyword : String) (form : α → Except Overflow String)
    (items : List α) : PageM Unit := do
  if !items.isEmpty then
    line (keyword ++ " (")
    indented (writeItems ";" form items)
    line ");"

/-- Writes signals one by one. -/
def writeSignals (form : SignalDecl → Except Overflow String) (signals : List SignalDecl)
    : PageM Unit :=
  signals.forM (fun signal => do line (← computed (form signal)))

def writeVhdlUnit [Arithmetic] (unit : DesignUnit) : PageM Unit := do
  let name := unit.name
  line "LIBRARY ieee;"
  line "USE ieee.std_logic_1164.all;"
  newline
  line s!"ENTITY {name} IS"
  indented do
    writeClause "GENERIC" vhdlGeneric unit.generics
    writeClause "PORT" vhdlPort unit.ports
  line s!"END ENTITY {name};"
  newline
  line s!"ARCHITECTURE PlatformIndependent OF {name} IS"
  indented do
    if !unit.architecture.signals.isEmpty then
      newline
      writeSignals vhdlSignal unit.architecture.signals
  newline
  line "BEGIN"
  writeStatements .vhdl unit.architecture.statements
  line "END PlatformIndependent;"

def writeVerilogUnit [Arithmetic] (unit : DesignUnit) : PageM Unit := do
  let name := unit.name
  if unit.generics.isEmpty then
    line s!"module {name} ("
  else
    line s!"module {name} #("
    indented (separatedLines "," (unit.generics.map (fun generic => s!"parameter {generic} = 1")))
    line ") ("
  indented (writeItems "," verilogPort unit.ports)
  line ");"
  if !unit.architecture.signals.isEmpty then
    newline
    indented (writeSignals verilogSignal unit.architecture.signals)
  newline
  writeStatements .verilog unit.architecture.statements
  line "endmodule"

def writeUnit [Arithmetic] (dialect : Dialect) (unit : DesignUnit) : PageM Unit := do
  writeHeader dialect unit.name
  match dialect with
  | .vhdl => writeVhdlUnit unit
  | .verilog => writeVerilogUnit unit

/-- The file text of a design unit. -/
def DesignUnit.render [Arithmetic] (dialect : Dialect) (unit : DesignUnit)
    : Except GenerationError String :=
  Page.written (writeUnit dialect unit)

end SchematicHdl.Hdl
