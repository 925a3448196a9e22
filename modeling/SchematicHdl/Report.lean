/-! Diagnostics handed to whoever asked for a run. -/

namespace SchematicHdl

/-- How serious a diagnostic is, in ascending order. -/
inductive Severity where
  | info
  | warning
  | error
deriving DecidableEq, Repr

namespace Severity

def all : List Severity := [.info, .warning, .error]

def name : Severity → String
  | .info => "info"
  | .warning => "warning"
  | .error => "error"

def ofName? (name : String) : Option Severity := all.find? (fun severity => severity.name = name)

/-- The level name that a log shows. -/
def logLevel : Severity → String
  | .info => "INFO"
  | .warning => "WARN"
  | .error => "ERROR"

def rank : Severity → Nat
  | .info => 0
  | .warning => 1
  | .error => 2

/-- The more serious of two. -/
def max (a b : Severity) : Severity := if a.rank < b.rank then b else a

end Severity

structure Diagnostic where
  severity : Severity
  message : String
deriving DecidableEq, Repr

/-- Diagnostics in the order in which they came. -/
structure Report where
  entries : List Diagnostic
deriving DecidableEq, Repr

namespace Report

def messages (report : Report) (severity : Severity) : List String :=
  (report.entries.filter (fun entry => entry.severity = severity)).map Diagnostic.message

/-- The highest severity that occurs. -/
def worst? (report : Report) : Option Severity :=
  match report.entries with
  | [] => none
  | first :: rest =>
      some (rest.foldl (fun worst entry => worst.max entry.severity) first.severity)

end Report

end SchematicHdl
