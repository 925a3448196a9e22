import SchematicHdl.CommandLine

/-! The program: reads the files that the arguments name, runs the command and writes its files. -/

namespace SchematicHdl

/-- What is wrong with the path of a failed access. -/
def pathFault? : IO.Error → Option PathFault
  | .noFileOrDirectory _ _ _ => some .missing
  | .inappropriateType none _ _ => some .isDirectory
  | .inappropriateType (some _) _ _ => some .notDirectory
  | .alreadyExists _ _ _ => some .exists
  | _ => none

/-- The wording of a failed access. -/
def accessFailure (error : IO.Error) : String :=
  ((pathFault? error).map PathFault.message).getD (toString error)

/-- The text of a file that the arguments may name. -/
def readNamed (path : Option String) : IO CommandLine.FileText := do
  match path with
  | none => return .ok ""
  | some path =>
      try
        return .ok (← IO.FS.readFile path)
      catch error =>
        return .error (accessFailure error)

/-- The directory that a path leads through last. -/
def directoryOf (path : String) : String :=
  String.ofList ((path.toList.reverse.dropWhile (· ≠ '/')).drop 1).reverse

/-- Makes a directory and what leads to it. The whole path is tried first, as `Folder` does it. -/
def makeDirectory (path : String) : IO Unit := do
  try
    IO.FS.createDir path
  catch
    | .noFileOrDirectory _ _ _ => IO.FS.createDirAll path
    | .alreadyExists _ _ _ => IO.FS.createDirAll path
    | error => throw error

def writeOutput (file : Generation.OutputFile) : IO Unit := do
  let directory := directoryOf file.path
  if !directory.isEmpty then
    makeDirectory directory
  IO.FS.writeFile file.path file.text

/-- Why a path is refused before anything is tried, if so. -/
def spellingFault? (path : String) : Option String :=
  match Folder.checkSpelling path with
  | .error fault => some fault.message
  | .ok () => none

def usage : String :=
  "\n".intercalate
    ["Usage: [OPTIONS] DESIGN",
      "Generate structural VHDL or Verilog from a schematic design file.",
      "  -d, --dialect vhdl|verilog|both",
      "  -o, --out DIR",
      "  -c, --config FILE",
      "      --global-tick"]

end SchematicHdl

def main (arguments : List String) : IO UInt32 := do
  let (settingsPath, designPath) := SchematicHdl.CommandLine.inputPaths arguments
  let settingsText ← SchematicHdl.readNamed settingsPath
  let designText ← SchematicHdl.readNamed designPath
  let result :=
    SchematicHdl.CommandLine.run arguments
      { settingsText, designText, writeCheck := SchematicHdl.spellingFault? }
  if designPath.isNone then
    IO.eprintln SchematicHdl.usage
  try
    result.files.forM SchematicHdl.writeOutput
  catch error =>
    IO.eprintln s!"ERROR {SchematicHdl.accessFailure error}"
    return 1
  match result.message with
  | some message => IO.eprintln s!"ERROR {message}"
  | none => pure ()
  return result.exitCode.toUInt32
