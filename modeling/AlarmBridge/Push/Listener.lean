import AlarmBridge.Log
import AlarmBridge.Push.Url
import AlarmBridge.PushEvent
import AlarmBridge.Text.Utf8

/-! Listening on the push channel.  Each text message that is an event is passed on; other messages
are left out.  After a connection ends the next one is tried, until the listener is stopped or
nobody receives events any more. -/

set_option autoImplicit false

namespace AlarmBridge.Push

/-- What arrives on a connection.  The frame of a close is as the library shows it. -/
inductive Incoming
  | text (content : List Char)
  | binary (content : Bytes)
  | ping
  | pong
  | close (frame : String)
  | fault (message : String)
deriving Repr, DecidableEq, Inhabited

/-- What trying to connect comes to: what arrives on the connection, or why there is none. -/
abbrev Attempt := Except ConnectFault (List Incoming)

/-- What a connection came to: the events passed on, how it ended, and what was logged. -/
structure Listened where
  events : List PushEvent
  result : Except PushCause Unit
  log : List Log.Record
deriving Inhabited

namespace Listened

/-- One log line before all else. -/
def after (l : Listened) (level : Log.Level) (text : String) : Listened :=
  { l with log := ⟨level, .push, "[Push] " ++ text⟩ :: l.log }

/-- One event before all others. -/
def afterEvent (l : Listened) (e : PushEvent) : Listened := { l with events := e :: l.events }

end Listened

/-- What the messages of a connection come to; `receiving` says whether anybody receives events. -/
def receive (receiving : Bool) : List Incoming → Listened
  | [] => ⟨[], .ok (), []⟩
  | .fault message :: _ => ⟨[], .error (.read message), []⟩
  | .close frame :: _ => Listened.after ⟨[], .ok (), []⟩ .debug ("Close frame: " ++ frame)
  | .text content :: rest =>
    match PushEvent.ofText? content with
    | .error fault =>
      (receive receiving rest).after .warn
        ("Ignoring malformed event: " ++ (Failure.push (.malformed fault)).message)
    | .ok e =>
      if receiving then
        ((receive receiving rest).afterEvent e).after .debug ("Received " ++ e.describe)
      else Listened.after ⟨[], .error .receiverGone, []⟩ .debug ("Received " ++ e.describe)
  | .binary _ :: rest => receive receiving rest
  | .ping :: rest => receive receiving rest
  | .pong :: rest => receive receiving rest

/-- What one attempt to listen comes to. -/
def listen (url token : String) (receiving : Bool) (attempt : Attempt) : Listened :=
  match target? url with
  | .error cause => ⟨[], .error cause, []⟩
  | .ok u =>
    if !isSendable token then ⟨[], .error .badToken, []⟩
    else if u.service?.isNone then ⟨[], .error (.connect .unsupportedScheme), []⟩
    else
      match attempt with
      | .error fault => ⟨[], .error (.connect fault), []⟩
      | .ok messages => (receive receiving messages).after .info "Connected"

/-- The line logged when a connection has ended. -/
def endLine (receiving : Bool) (result : Except PushCause Unit) : Log.Record :=
  match result with
  | .ok () => ⟨.warn, .push, "[Push] Connection closed by server"⟩
  | .error cause =>
    if receiving then ⟨.error, .push, "[Push] " ++ (Failure.push cause).message⟩
    else ⟨.debug, .push, "[Push] Event receiver gone: " ++ cause.message⟩

/-- Attempts up to the last one, or up to the one after which nobody receives events.  Says also
whether the listener ended by itself. -/
def attempts (url token : String) (receiving : Bool) :
    List Attempt → List PushEvent × List Log.Record × Bool
  | [] => ([], [], false)
  | attempt :: rest =>
    let l := listen url token receiving attempt
    let log := l.log ++ [endLine receiving l.result]
    match receiving, l.result with
    | false, .error _ => (l.events, log, true)
    | _, _ =>
      let (events, later, alone) := attempts url token receiving rest
      (l.events ++ events, log ++ later, alone)

/-- What a listener does with some attempts before it is stopped: the events passed on, what was
logged, and whether it ended by itself. -/
def run (url token : String) (receiving : Bool) (tries : List Attempt) :
    List PushEvent × List Log.Record × Bool :=
  let (events, log, alone) := attempts url token receiving tries
  (events, ⟨.info, .push, "[Push] Starting push listener for " ++ url⟩ ::
    (log ++ [⟨.info, .push, "[Push] Push listener stopped"⟩]), alone)

end AlarmBridge.Push
