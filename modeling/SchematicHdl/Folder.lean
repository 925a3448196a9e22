/-! A folder of text files, as a command sees it that runs there. A path is followed step by step,
and every step starts at a directory: two dots behind a name lead back only if the name is one of a
directory. Of the directories around the folder nothing is known but that they are there.
-/

namespace SchematicHdl

/-- Text files, each at the names that lead to it. A directory is there if a file is below it. -/
structure Folder where
  files : List (List String × String)
deriving DecidableEq, Repr

/-- Why nothing can be read or written at a path. -/
inductive PathFault where
  | missing
  | exists
  | notDirectory
  | isDirectory
  | nameTooLong
  | nullCharacter
deriving DecidableEq, Repr

def PathFault.message : PathFault → String
  | .missing => "No such file or directory (os error 2)"
  | .exists => "File exists (os error 17)"
  | .notDirectory => "Not a directory (os error 20)"
  | .isDirectory => "Is a directory (os error 21)"
  | .nameTooLong => "File name too long (os error 36)"
  | .nullCharacter => "file name contained an unexpected NUL byte"

/-- Where a path leads. -/
inductive Place where
  | directory (steps : List String)
  | file (steps : List String) (text : String)
  /-- A directory that is not in the folder. -/
  | outside
deriving DecidableEq, Repr

namespace Folder

/-- The number of bytes that a name may have. -/
def nameLimit : Nat := 255

/-- The number of bytes that a path has to stay below. -/
def pathLimit : Nat := 4096

/-- Refuses a path that cannot even be looked up. -/
def checkSpelling (path : String) : Except PathFault Unit :=
  if path.toList.contains '\x00' then .error .nullCharacter
  else if path.utf8ByteSize ≥ pathLimit then .error .nameTooLong
  else .ok ()

/-- Names no place but the one that it is written behind. -/
def staysPut (name : String) : Bool := name = "" || name = "."

def isTooLong (name : String) : Bool := name.utf8ByteSize > nameLimit

/-- Where a path starts: in the folder, or at the root of all directories. -/
def origin (path : String) : Place :=
  if path.toList.head? = some '/' then .outside else .directory []

def pathOf (steps : List String) : String := "/".intercalate steps

/-- One step back. -/
def parent (steps : List String) : Place :=
  if steps.isEmpty then .outside else .directory steps.dropLast

def hasDirectory (folder : Folder) (steps : List String) : Bool :=
  folder.files.any (fun file => steps.isPrefixOf file.1)

def hasFile (folder : Folder) (steps : List String) : Bool :=
  (folder.files.lookup steps).isSome

/-- The place of a name in a directory of the folder. -/
def locate (folder : Folder) (steps : List String) : Except PathFault Place :=
  match folder.files.lookup steps with
  | some text => .ok (.file steps text)
  | none => if folder.hasDirectory steps then .ok (.directory steps) else .error .missing

/-- One more step of a path. -/
def step (folder : Folder) (place : Place) (name : String) : Except PathFault Place :=
  match place with
  | .file _ _ => .error .notDirectory
  | .directory steps =>
      if staysPut name then .ok place
      else if name = ".." then .ok (parent steps)
      else if isTooLong name then .error .nameTooLong
      else folder.locate (steps ++ [name])
  | .outside =>
      if staysPut name || name = ".." then .ok .outside
      else if isTooLong name then .error .nameTooLong
      else .error .missing

/-- Follows a path. -/
def follow (folder : Folder) (path : String) : Except PathFault Place := do
  checkSpelling path
  if path.isEmpty then throw .missing
  else (path.splitOn "/").foldlM folder.step (origin path)

def read (folder : Folder) (path : String) : Except PathFault String := do
  match ← folder.follow path with
  | .file _ text => return text
  | .directory _ => throw .isDirectory
  | .outside => throw .isDirectory

/-- Makes the directories that a path leads through. The path as a whole is tried first, and a file
on the way is then no directory. Once a name is not there, `isNew` holds and the names from there on
are made one by one; a file among them, or at the end of the path, is something that exists already.
-/
def makeDirectories (folder : Folder) (isNew : Bool) (place : Place)
    : List String → Except PathFault Place
  | [] => .ok place
  | name :: rest =>
      if staysPut name then folder.makeDirectories isNew place rest
      else
        match place with
        | .file _ _ => .error .notDirectory
        | .outside =>
            if isTooLong name then .error .nameTooLong
            else folder.makeDirectories isNew .outside rest
        | .directory steps =>
            if name = ".." then folder.makeDirectories isNew (parent steps) rest
            else
              let next := steps ++ [name]
              if isTooLong name then .error .nameTooLong
              else if folder.hasFile next then
                .error (if isNew || rest.isEmpty then .exists else .notDirectory)
              else
                folder.makeDirectories (isNew || !folder.hasDirectory next) (.directory next) rest

/-- Where a file lands that is written to a path; `none` stands for somewhere outside. The
directories are made before the file.
-/
def destination (folder : Folder) (path : String) : Except PathFault (Option (List String)) := do
  let names := path.splitOn "/"
  let directory := names.dropLast
  let name := names.getLastD ""
  checkSpelling (pathOf directory)
  let place ← folder.makeDirectories false (origin path) directory
  checkSpelling path
  if staysPut name || name = ".." then throw .isDirectory
  else if isTooLong name then throw .nameTooLong
  else
    match place with
    | .directory steps =>
        let target := steps ++ [name]
        if !folder.hasFile target && folder.hasDirectory target then throw .isDirectory
        else return some target
    | _ => return none

/-- Why no file can be written to a path, if so. -/
def writeFault? (folder : Folder) (path : String) : Option PathFault :=
  match folder.destination path with
  | .error fault => some fault
  | .ok _ => none

/-- Puts a file into the folder, in place of one that is there. A path that leaves the folder, or
that no file can be written to, changes nothing in it.
-/
def write (folder : Folder) (path text : String) : Folder :=
  match folder.destination path with
  | .ok (some target) =>
      ⟨folder.files.filter (fun file => file.1 ≠ target) ++ [(target, text)]⟩
  | _ => folder

/-- All files with their paths, in the order of the paths. -/
def listing (folder : Folder) : List (String × String) :=
  (folder.files.map (fun file => (pathOf file.1, file.2))).mergeSort (fun a b => a.1 ≤ b.1)

end Folder

end SchematicHdl
