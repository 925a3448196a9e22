import SchematicHdl.Clock
import SchematicHdl.Dialect
import SchematicHdl.Settings.Toml

/-! The settings file. Every setting may be left out; settings on the command line go before those
of the file.
-/

namespace SchematicHdl

/-- The dialects to generate, as they are asked for. -/
inductive DialectChoice where
  | only (dialect : Dialect)
  | both
deriving DecidableEq, Repr

namespace DialectChoice

def dialects : DialectChoice → List Dialect
  | .only dialect => [dialect]
  | .both => Dialect.all

def ofName? (name : String) : Option DialectChoice :=
  if name = "both" then some .both else (Dialect.ofShortName? name).map .only

end DialectChoice

structure Settings where
  dialects : Option DialectChoice
  outputDirectory : Option String
  clockMode : Option ClockMode
deriving DecidableEq, Repr

namespace Settings

def empty : Settings := ⟨none, none, none⟩

def settingNames : List String := ["dialect", "output_dir", "clock_mode"]

/-- A name out of a set; it may also be the only key of a table and stand for nothing there. -/
def choice? {α : Type} (ofName? : String → Option α) : Toml.Value → Option α
  | .text name => ofName? name
  | .table _ [(name, .emptyArray)] => ofName? name
  | .table _ [(name, .table _ [])] => ofName? name
  | _ => none

def text? : Toml.Value → Option String
  | .text value => some value
  | _ => none

/-- A setting that may be left out. -/
def setting? {α : Type} (entries : Toml.Entries) (name : String) (read : Toml.Value → Option α)
    : Option (Option α) :=
  match entries.lookup name with
  | none => some none
  | some value => (read value).map some

/-- The settings in a text; a text with anything else in it is refused. -/
def read? (text : String) : Option Settings := do
  let entries ← Toml.read? text
  if entries.all (fun entry => settingNames.contains entry.1) then
    return {
      dialects := ← setting? entries "dialect" (choice? DialectChoice.ofName?),
      outputDirectory := ← setting? entries "output_dir" text?,
      clockMode := ← setting? entries "clock_mode" (choice? ClockMode.ofName?)
    }
  else
    none

end Settings

end SchematicHdl
