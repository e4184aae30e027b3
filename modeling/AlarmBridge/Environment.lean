import AlarmBridge.OsText
import AlarmBridge.Roster
import AlarmBridge.Text.Blank

/-! Environment variables, and the `.env` file that adds to them.  A line of the file names a
variable and its value, which may stand between quotes.  Variables that are seen to be set keep
their values; one whose value is no Unicode is not seen. -/

set_option autoImplicit false

namespace AlarmBridge

/-- The variables that are set. -/
abbrev Environment := Roster OsText OsText

namespace Environment

/-- What a variable holds, if it is set. -/
def held? (env : Environment) (key : String) : Option OsText := env.get? (.ofString key)

/-- The value of a variable, if it is set to a text in Unicode. -/
def var? (env : Environment) (key : String) : Option String := (env.held? key).bind OsText.text?

def set (env : Environment) (key value : String) : Environment :=
  env.insert (.ofString key) (.ofString value)

/-- The environment that a process is started with: a name, an equals sign and a value for each
variable, and a NUL after each.  The first entry of a name counts. -/
def ofBlock (block : Bytes) : Environment :=
  let equals : UInt8 := 0x3D
  let entries := ((OsText.mk block).splitAt 0).filter fun entry => entry.bytes.contains equals
  entries.foldr (fun entry env =>
    env.insert ⟨entry.bytes.takeWhile (· ≠ equals)⟩
      ⟨(entry.bytes.dropWhile (· ≠ equals)).drop 1⟩) .empty

end Environment

namespace Dotenv

/-- What stands before and after the first character of a kind, if there is one. -/
def splitAtFirst (c : Char) (s : List Char) : Option (List Char × List Char) :=
  match s.dropWhile (· ≠ c) with
  | [] => none
  | _ :: rest => some (s.takeWhile (· ≠ c), rest)

/-- A value without the pair of quotes around it, if it has one. -/
def unquote (v : List Char) : List Char :=
  match v with
  | [] => []
  | q :: rest => if (q = '"' ∨ q = '\'') ∧ rest.getLast? = some q then rest.dropLast else v

/-- The variable that a line sets, if it sets one.  Blank lines, lines that begin with a number sign
and lines without an equals sign set none. -/
def entry? (line : List Char) : Option (String × String) :=
  let line := Text.trim line
  if line.isEmpty ∨ line.head? = some '#' then none
  else
    (splitAtFirst '=' line).map fun (key, value) =>
      (String.ofList (Text.trim key), String.ofList (unquote (Text.trim value)))

/-- The variables that a file sets, in the order of its lines. -/
def entries (content : List Char) : List (String × String) := (Text.lines content).filterMap entry?

/-- Whether the operating system takes a variable. -/
def isSettable (key value : String) : Bool :=
  !key.isEmpty && !(key.toList ++ value.toList).any (· = Char.ofNat 0)

/-- What loading comes to: all entries taken, or a crash at one that cannot be set. -/
inductive Loaded
  | complete (env : Environment)
  | crashed (env : Environment)
deriving DecidableEq

def Loaded.env : Loaded → Environment
  | complete env => env
  | crashed env => env

/-- Sets the variables that are not seen to be set yet. -/
def load (env : Environment) : List (String × String) → Loaded
  | [] => .complete env
  | (key, value) :: rest =>
    if (env.var? key).isSome then load env rest
    else if isSettable key value then load (env.set key value) rest
    else .crashed env

/-- Loads the content of a file; a file that is missing or is no text adds nothing. -/
def loadFile (env : Environment) (content : Option (List Char)) : Loaded :=
  match content with
  | none => .complete env
  | some text => load env (entries text)

end Dotenv

end AlarmBridge
