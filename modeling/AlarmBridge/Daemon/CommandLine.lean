import AlarmBridge.Environment

/-! The command line of the daemon: options with a value, each at most once, and requests for help
or the version, which end the reading.  Options that are not given may be set in the environment. -/

set_option autoImplicit false

namespace AlarmBridge.Daemon

/-- What the command line says. -/
structure Arguments where
  snapshot : Option OsText
  entryId : Option String
  logLevel : Option String
deriving Repr, DecidableEq, Inhabited

/-- What reading a command line comes to. -/
inductive Parsed
  | arguments (a : Arguments)
  | information
  | misuse
deriving Repr, DecidableEq, Inhabited

namespace Arguments

def none : Arguments := ⟨.none, .none, .none⟩

/-- Arguments with an option set, unless there is no such option, it is set already, or its value is
no path where one is due. -/
def set? (a : Arguments) (name value : String) : Option Arguments :=
  if name = "snapshot" then
    if a.snapshot.isSome ∨ value.isEmpty then .none
    else some { a with snapshot := some (.ofString value) }
  else if name = "entry-id" then
    if a.entryId.isSome then .none else some { a with entryId := some value }
  else if name = "log-level" then
    if a.logLevel.isSome then .none else some { a with logLevel := some value }
  else .none

end Arguments

/-- Whether an argument cannot be the value of an option. -/
def isOption (arg : String) : Bool :=
  arg.toList.head? = some '-' && arg.toList.length ≠ 1

inductive Word
  | information
  | assignment (name value : String)
  | option (name : String)
  | separator
  | wrong
deriving Repr, DecidableEq, Inhabited

def wordOf (arg : String) : Word :=
  match arg.toList with
  | ['-', '-'] => .separator
  | '-' :: '-' :: rest =>
    match Dotenv.splitAtFirst '=' rest with
    | some (name, value) => .assignment (String.ofList name) (String.ofList value)
    | none =>
      if arg = "--help" ∨ arg = "--version" then .information else .option (String.ofList rest)
  | '-' :: c :: _ => if c = 'h' ∨ c = 'V' then .information else .wrong
  | _ => .wrong

/-- Reads arguments given those read before. -/
def readFrom (a : Arguments) : List String → Parsed
  | [] => .arguments a
  | arg :: rest =>
    match wordOf arg with
    | .information => .information
    | .wrong => .misuse
    | .separator => if rest.isEmpty then .arguments a else .misuse
    | .assignment name value =>
      match a.set? name value with
      | some a => readFrom a rest
      | none => .misuse
    | .option name =>
      match rest with
      | [] => .misuse
      | value :: rest =>
        if isOption value then .misuse
        else
          match a.set? name value with
          | some a => readFrom a rest
          | none => .misuse

/-- Options that are not given, as the environment sets them.  Of these only the path may be no
Unicode. -/
def completeFrom (env : Environment) (a : Arguments) : Parsed :=
  let snapshot := a.snapshot.or (env.held? "SIMPLISAFE_SNAPSHOT")
  if snapshot.any OsText.isEmpty then .misuse
  else if a.logLevel.isNone ∧ (env.held? "SIMPLISAFE_LOG_LEVEL").any (·.text?.isNone) then .misuse
  else .arguments { a with
    snapshot := snapshot
    logLevel := a.logLevel.or (env.var? "SIMPLISAFE_LOG_LEVEL") }

def parse (env : Environment) (args : List String) : Parsed :=
  match readFrom .none args with
  | .arguments a => completeFrom env a
  | other => other

end AlarmBridge.Daemon
