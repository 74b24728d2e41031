import Firmware.CommandLine.Path

/-! # A flat directory

The surroundings of a run as plain data: one directory of files without any
directory in it, the standard input, and what has been written to the standard
output and the standard error. The directories around it are there, but hold
nothing that could be read, and nothing can be put into them. -/

namespace Firmware.CommandLine

/-- The surroundings of a run. -/
structure Workspace where
  files : List (String × List UInt8) := []
  input : List UInt8 := []
  output : List UInt8 := []
  log : String := ""
  deriving DecidableEq, Repr

/-- Where a path leads: to the directory, to one around it, or to a file in it. -/
inductive Spot where
  | here
  | outside
  | file (name : String)
  deriving DecidableEq, Repr

namespace Workspace

/-- The content of a file. -/
def file? (workspace : Workspace) (name : String) : Option (List UInt8) :=
  workspace.files.lookup name

/-- Gives a file a content, whether it exists or not. -/
def put (workspace : Workspace) (name : String) (content : List UInt8) : Workspace :=
  { workspace with
    files := (name, content) :: workspace.files.filter fun entry => entry.1 ≠ name }

/-- Follows one name of a path. -/
def follow (workspace : Workspace) (spot : Spot) (name : String) : Except SystemError Spot :=
  match spot with
  | .file _ => .error .notDirectory
  | .here =>
      if name = "." then .ok .here
      else if name = ".." then .ok .outside
      else if Path.isTooLong name then .error .nameTooLong
      else if (workspace.file? name).isSome then .ok (.file name)
      else .error .noSuchFile
  | .outside =>
      if Path.isDots name then .ok .outside
      else if Path.isTooLong name then .error .nameTooLong
      else .error .noSuchFile

/-- Follows names from the start of a path. -/
def walk (workspace : Workspace) (path : Path) (names : List String) :
    Except SystemError Spot :=
  names.foldlM workspace.follow (if path.absolute then .outside else .here)

/-- Where a path leads that has to exist. -/
def find (workspace : Workspace) (text : String) : Except SystemError Spot := do
  let path ← Path.ofText text
  let spot ← workspace.walk path path.names
  match spot with
  | .file _ => if path.slashed then .error .notDirectory else .ok spot
  | _ => .ok spot

/-- The name of the file that a path leads to, whether it exists or not. -/
def target (workspace : Workspace) (text : String) : Except SystemError String := do
  let path ← Path.ofText text
  let spot ← workspace.walk path path.names.dropLast
  match spot, path.names.getLast? with
  | _, none => .error .isDirectory
  | .file _, some _ => .error .notDirectory
  | spot, some name =>
      if Path.isDots name || path.slashed then .error .isDirectory
      else if Path.isTooLong name then .error .nameTooLong
      else if spot = .outside then .error .noSuchFile
      else .ok name

/-- What reading the file at a path gives. Directories can be opened, but not read. -/
def read (workspace : Workspace) (text : String) :
    Except SystemError (Option (List UInt8)) := do
  match ← workspace.find text with
  | .file name => .ok (workspace.file? name)
  | _ => .ok none

end Workspace

instance : Console (StateM Workspace) where
  readStandard := do
    let workspace ← get
    return workspace.input
  readFile path := do
    let workspace ← get
    return workspace.read path
  createFile path := do
    let workspace ← get
    match workspace.target path with
    | .error error => return .error error
    | .ok name =>
        set (workspace.put name [])
        return .ok ()
  writeFile path text := do
    let workspace ← get
    match workspace.target path with
    | .error error => return .error error
    | .ok name =>
        set (workspace.put name (utf8 text))
        return .ok ()
  print text := do
    modify fun workspace => { workspace with output := workspace.output ++ utf8 text }
    return .ok ()
  log text := modify fun workspace => { workspace with log := workspace.log ++ text }

/-- The status of a run of the command in a workspace, and the workspace after it. -/
def runIn (workspace : Workspace) (arguments : List String) : Status × Workspace :=
  (run arguments : StateM Workspace Status).run workspace

end Firmware.CommandLine
