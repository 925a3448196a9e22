import SchematicHdl.DesignFile.Build
import SchematicHdl.Folder
import SchematicHdl.Generation.Emission
import SchematicHdl.Settings.Basic

/-! The command line: reading the arguments, combining them with the settings file, and the exit
code, message and files of the command. The texts of the named files are handed in, so that
everything here is a function of them.
-/

namespace SchematicHdl.CommandLine

open Generation (Options OutputFile)

-----------------------------------------------------------------------------------------
-- Arguments
-----------------------------------------------------------------------------------------

/-- What the arguments ask for. -/
structure Invocation where
  /-- Path of the design file. -/
  design : Option String
  dialects : Option DialectChoice
  outputDirectory : Option String
  /-- Path of the settings file. -/
  settings : Option String
  globalTick : Bool
deriving DecidableEq, Repr

/-- An option that takes a value. -/
inductive ValueOption where
  | dialect
  | out
  | config
deriving DecidableEq, Repr

/-- What one argument is. -/
inductive Argument where
  | positional (text : String)
  | globalTick
  /-- Asks for help or for the version: nothing is run. -/
  | information
  | endOfOptions
  | valued (name : ValueOption) (attached : Option String)
  | unknown
deriving DecidableEq, Repr

def longOption? : String → Option ValueOption
  | "dialect" => some .dialect
  | "out" => some .out
  | "config" => some .config
  | _ => none

def shortOption? : Char → Option ValueOption
  | 'd' => some .dialect
  | 'o' => some .out
  | 'c' => some .config
  | _ => none

/-- An argument behind two dashes. -/
def classifyLong (body : List Char) : Argument :=
  let name := String.ofList (body.takeWhile (· ≠ '='))
  let attached :=
    match body.dropWhile (· ≠ '=') with
    | [] => none
    | _ :: value => some (String.ofList value)
  match longOption? name with
  | some option => .valued option attached
  | none =>
      if attached.isSome then .unknown
      else if name = "global-tick" then .globalTick
      else if name = "help" || name = "version" then .information
      else .unknown

/-- An argument behind one dash. A value may follow its letter, with or without an equals sign. -/
def classifyShort (letter : Char) (rest : List Char) : Argument :=
  match shortOption? letter with
  | some option =>
      match rest with
      | [] => .valued option none
      | '=' :: value => .valued option (some (String.ofList value))
      | value => .valued option (some (String.ofList value))
  | none => if letter = 'h' || letter = 'V' then .information else .unknown

def classify (argument : String) : Argument :=
  match argument.toList with
  | ['-', '-'] => .endOfOptions
  | '-' :: '-' :: body => classifyLong body
  | '-' :: letter :: rest => classifyShort letter rest
  | _ => .positional argument

/-- The outcome of reading the arguments. -/
inductive Arguments where
  | run (invocation : Invocation)
  | information
  | refused
deriving DecidableEq, Repr

namespace Invocation

def empty : Invocation := ⟨none, none, none, none, false⟩

/-- Takes a value that may be given once and must not be empty. -/
def once? (current : Option String) (value : String) : Option (Option String) :=
  if current.isSome || value.isEmpty then none else some (some value)

def setValue? (invocation : Invocation) (value : String) : ValueOption → Option Invocation
  | .dialect =>
      if invocation.dialects.isSome then none
      else
        (DialectChoice.ofName? value).map (fun choice =>
          { invocation with dialects := some choice })
  | .out => do
      return { invocation with outputDirectory := ← once? invocation.outputDirectory value }
  | .config => do return { invocation with settings := ← once? invocation.settings value }

def setDesign? (invocation : Invocation) (value : String) : Option Invocation := do
  return { invocation with design := ← once? invocation.design value }

/-- Reads positional arguments only. -/
def readPositional (invocation : Invocation) : List String → Arguments
  | [] => if invocation.design.isSome then .run invocation else .refused
  | argument :: rest =>
      match invocation.setDesign? argument with
      | some invocation => invocation.readPositional rest
      | none => .refused

/-- Reads arguments from left to right. An option without an attached value takes the next argument,
unless that looks like an option.
-/
def read (invocation : Invocation) : List String → Arguments
  | [] => if invocation.design.isSome then .run invocation else .refused
  | argument :: rest =>
      match classify argument with
      | .positional text =>
          match invocation.setDesign? text with
          | some invocation => invocation.read rest
          | none => .refused
      | .globalTick =>
          if invocation.globalTick then .refused
          else ({ invocation with globalTick := true } : Invocation).read rest
      | .information => .information
      | .endOfOptions => invocation.readPositional rest
      | .unknown => .refused
      | .valued option (some value) =>
          match invocation.setValue? value option with
          | some invocation => invocation.read rest
          | none => .refused
      | .valued option none =>
          match rest with
          | [] => .refused
          | value :: rest =>
              match classify value with
              | .positional value =>
                  match invocation.setValue? value option with
                  | some invocation => invocation.read rest
                  | none => .refused
              | _ => .refused

end Invocation

-----------------------------------------------------------------------------------------
-- Running the command
-----------------------------------------------------------------------------------------

/-- How the command ends. -/
structure Result where
  exitCode : Nat
  /-- The error that is reported, if there is one. -/
  message : Option String
  files : List OutputFile
deriving DecidableEq, Repr

def Result.failed (message : String) : Result := ⟨1, some message, []⟩

/-- Exit code after refused arguments. -/
def usageExitCode : Nat := 2

/-- Exit code after a run that broke off. -/
def brokenExitCode : Nat := 101

/-- A path below a directory. -/
def joinPath (directory path : String) : String :=
  if directory.isEmpty then path
  else if directory.toList.getLast? = some '/' then directory ++ path
  else directory ++ "/" ++ path

/-- How one run of a dialect ends. -/
inductive RunEnd where
  | done
  | failed (message : String)
  /-- The run broke off, in building the circuits or by arithmetic that left its word. -/
  | broken
deriving DecidableEq, Repr

/-- Tells why no file can be written at a path, if so. -/
abbrev WriteCheck := String → Option String

/-- The files of a run that can be written, and how the run ends. It ends at the first file that
cannot be written.
-/
def writable (writeCheck : WriteCheck) (runEnd : RunEnd)
    : List OutputFile → RunEnd × List OutputFile
  | [] => (runEnd, [])
  | file :: rest =>
      match writeCheck file.path with
      | some reason => (.failed reason, [])
      | none =>
          let (runEnd, files) := writable writeCheck runEnd rest
          (runEnd, file :: files)

/-- Runs one dialect of a checked design file. -/
def runDialect [Machine] (file : DesignFile) (writeCheck : WriteCheck) (options : Options)
    : RunEnd × List OutputFile :=
  match file.elaborate with
  | .error (.misuse _) => (.broken, [])
  | .error error => (.failed error.message, [])
  | .ok (library, top) =>
      let outcome := Generation.generate library top options
      let files :=
        outcome.files.map (fun file =>
          { file with path := joinPath options.outputDirectory file.path })
      match outcome.error with
      | none => writable writeCheck .done files
      | some (.overflow _) => writable writeCheck .broken files
      | some error => writable writeCheck (.failed error.message) files

/-- Ends a command with a single run. -/
def singleResult : RunEnd × List OutputFile → Result
  | (.done, files) => ⟨0, none, files⟩
  | (.failed message, files) => ⟨1, some message, files⟩
  | (.broken, files) => ⟨brokenExitCode, none, files⟩

/-- What the end of a run adds to the message of a command with several runs. -/
def RunEnd.failure? : RunEnd → Option String
  | .done => none
  | .failed message => some message
  | .broken => some "generator thread panicked"

/-- Ends a command with several runs; each of them is carried through. -/
def jointResult (runs : List (RunEnd × List OutputFile)) : Result :=
  let files := runs.flatMap Prod.snd
  match runs.filterMap (fun run => run.1.failure?) with
  | [] => ⟨0, none, files⟩
  | failures => ⟨1, some ("\n".intercalate failures), files⟩

/-- Generates a design file with the combined settings. With several dialects each has a directory
of its own.
-/
def runFile [Machine] (file : DesignFile) (writeCheck : WriteCheck) (dialects : List Dialect)
    (outputDirectory : String) (clockMode : ClockMode) : Result :=
  match dialects with
  | [dialect] => singleResult (runDialect file writeCheck ⟨dialect, outputDirectory, clockMode⟩)
  | _ =>
      jointResult (dialects.map (fun dialect =>
        runDialect file writeCheck
          ⟨dialect, joinPath outputDirectory dialect.shortName, clockMode⟩))

/-- The text of a file, or why it cannot be read. -/
abbrev FileText := Except String String

def readSettings (path : String) (text : FileText) : Except String Settings :=
  match text with
  | .error reason => .error s!"Failed to read config file {path}: {reason}"
  | .ok text =>
      match Settings.read? text with
      | some settings => .ok settings
      | none => .error s!"Failed to parse config file {path}: no settings"

def readDesign (path : String) (text : FileText) : Except String DesignFile :=
  match text with
  | .error reason => .error s!"Failed to read design file {path}: {reason}"
  | .ok text =>
      match DesignFile.read text with
      | .error error => .error (error.message ++ ": no design")
      | .ok file => .ok file

/-- What a command finds where it runs. -/
structure Surroundings where
  settingsText : FileText
  designText : FileText
  writeCheck : WriteCheck

/-- Carries out an invocation. The settings file comes before the design file, and arguments go
before settings. A check that breaks off ends the command.
-/
def Invocation.execute [Machine] (invocation : Invocation) (surroundings : Surroundings)
    : Except String Result := do
  let settings ←
    match invocation.settings with
    | some path => readSettings path surroundings.settingsText
    | none => .ok .empty
  let file ← readDesign (invocation.design.getD "") surroundings.designText
  match file.check with
  | .error (.overflow _) => return ⟨brokenExitCode, none, []⟩
  | .error fault => throw (LoadError.invalid fault).message
  | .ok () => pure ()
  let choice := (invocation.dialects <|> settings.dialects).getD (.only .vhdl)
  let outputDirectory :=
    (invocation.outputDirectory <|> settings.outputDirectory).getD
      Generation.defaultOutputDirectory
  let clockMode :=
    if invocation.globalTick then .globalTick else settings.clockMode.getD .derived
  return runFile file surroundings.writeCheck choice.dialects outputDirectory clockMode

/-- The paths of the settings file and the design file, where the arguments name them. -/
def inputPaths (arguments : List String) : Option String × Option String :=
  match Invocation.empty.read arguments with
  | .run invocation => (invocation.settings, invocation.design)
  | _ => (none, none)

/-- The result of the command for its arguments. -/
def run [Machine] (arguments : List String) (surroundings : Surroundings) : Result :=
  match Invocation.empty.read arguments with
  | .refused => ⟨usageExitCode, none, []⟩
  | .information => ⟨0, none, []⟩
  | .run invocation =>
      match invocation.execute surroundings with
      | .ok result => result
      | .error message => .failed message

/-- The text of a file that the arguments may name. -/
def readFrom (folder : Folder) : Option String → FileText
  | some path => (folder.read path).mapError PathFault.message
  | none => .ok ""

/-- Runs the command in a folder: its result, and the folder with the written files. -/
def runIn [Machine] (folder : Folder) (arguments : List String) : Result × Folder :=
  let (settings, design) := inputPaths arguments
  let result :=
    run arguments
      {
        settingsText := readFrom folder settings,
        designText := readFrom folder design,
        writeCheck := fun path => (folder.writeFault? path).map PathFault.message
      }
  (result, result.files.foldl (fun folder file => folder.write file.path file.text) folder)

end SchematicHdl.CommandLine
