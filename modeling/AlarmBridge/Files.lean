import AlarmBridge.IoError
import AlarmBridge.OsText

/-! Files of a working directory and what reading one comes to, as the operating system tells it.
What lies outside the directory that holds the working directory is not known and counts as
missing. -/

set_option autoImplicit false

namespace AlarmBridge

/-- A working directory: its name, its files and its directories. -/
structure Files where
  name : String
  files : List (String × Bytes)
  directories : List String

namespace Files

/-- Where a path has led: along names from the directory that holds the working directory, or
outside. -/
inductive Place
  | inside (names : List OsText)
  | outside
deriving Repr, DecidableEq, Inhabited

/-- What stands at a place. -/
inductive Entry
  | directory
  | file (content : Bytes)
  | nothing
deriving Repr, DecidableEq, Inhabited

/-- What stands at a place. -/
def entry (f : Files) : Place → Entry
  | .outside => .directory
  | .inside names =>
    let root := OsText.ofString f.name
    let within (path : String) : List OsText := root :: (OsText.ofString path).names
    match f.files.find? fun e => within e.1 = names with
    | some e => .file e.2
    | none =>
      let known := [root] :: (f.directories.map within ++ f.files.map fun e => within e.1)
      if known.any fun path => names.isPrefixOf path then .directory else .nothing

/-- The most bytes that a name may have. -/
def maxName : Nat := 255

/-- The most bytes that a path may have. -/
def maxPath : Nat := 4095

/-- One step of a path. -/
def enter (f : Files) (place : Place) (name : OsText) : Except OsCode Place :=
  match f.entry place with
  | .nothing => .error .noEntry
  | .file _ => .error .notADirectory
  | .directory =>
    if name.isEmpty ∨ name = .ofString "." then .ok place
    else if name = .ofString ".." then
      match place with
      | .outside => .ok .outside
      | .inside [] => .ok .outside
      | .inside names => .ok (.inside names.dropLast)
    else if maxName < name.bytes.length then .error .nameTooLong
    else
      match place with
      | .outside => .error .noEntry
      | .inside names =>
        if f.entry (.inside (names ++ [name])) = .nothing then .error .noEntry
        else .ok (.inside (names ++ [name]))

/-- Where a path leads from the working directory. -/
def resolve (f : Files) (path : OsText) : Except OsCode Place :=
  if path.isEmpty then .error .noEntry
  else if maxPath < path.bytes.length then .error .nameTooLong
  else
    let start := if path.isAbsolute then .outside else .inside [.ofString f.name]
    path.names.foldlM f.enter start

/-- The content of the file that a path leads to. -/
def read (f : Files) (path : OsText) : Except IoError Bytes :=
  if path.bytes.any (· = 0) then
    .error (.described .other "file name contained an unexpected NUL byte")
  else
    match f.resolve path with
    | .error code => .error (.os code)
    | .ok place =>
      match f.entry place with
      | .file content => .ok content
      | .directory => .error (.os .isADirectory)
      | .nothing => .error (.os .noEntry)

end Files

def textOf (content : Bytes) : Except IoError (List Char) :=
  match Text.decode content with
  | some s => .ok s
  | none => .error (.described .invalidData "stream did not contain valid UTF-8")

end AlarmBridge
