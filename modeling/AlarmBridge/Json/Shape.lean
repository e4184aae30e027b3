import AlarmBridge.Json.Skip

/-! Typed values of JSON: strings, truth values, unsigned numbers, lists, values that may be null,
and records.  A record is read from an object, whose unknown members are left out, or from a list of
its fields in order. -/

set_option autoImplicit false

namespace AlarmBridge.Json

namespace Reader

/-- Reads a value that starts as `accept` says, or refuses what is there. -/
def expecting {α : Type} (wanted : Wanted) (read : Char → Option (Reader α)) : Reader α := do
  match ← peekPastSpaces with
  | none => throw .endInValue
  | some c =>
    match read c with
    | some r => r
    | none => mismatch wanted

/-- A string for which a message names what was wanted. -/
def textFor (wanted : Wanted) : Reader (List Char) :=
  expecting wanted fun c => if c = '"' then some (do skip; stringBody) else none

def text : Reader String := String.ofList <$> textFor .text

/-- The path of a file. -/
def path : Reader String := String.ofList <$> textFor .path

def boolean : Reader Bool :=
  expecting .boolean fun c =>
    if c = 't' then some (do word ['t', 'r', 'u', 'e']; pure true)
    else if c = 'f' then some (do word ['f', 'a', 'l', 's', 'e']; pure false)
    else none

/-- `null`. -/
def unit : Reader Unit :=
  expecting .unit fun c => if c = 'n' then some (word ['n', 'u', 'l', 'l']) else none

/-- A whole number from zero up that fits the given bits. -/
def unsigned (bits : Nat) : Reader Nat :=
  expecting (.unsigned bits) fun c =>
    if startsNumber c then some do
      match ← number with
      | .float negative magnitude =>
        throw (.wrongType (.number (.float negative magnitude)) (.unsigned bits))
      | .whole value =>
        if 0 ≤ value ∧ value.toNat < Nat.pow 2 bits then pure value.toNat
        else throw (.wrongValue (.whole value) (.unsigned bits))
    else none

def uint8 : Reader UInt8 := UInt8.ofNat <$> unsigned 8

def uint16 : Reader UInt16 := UInt16.ofNat <$> unsigned 16

def uint64 : Reader UInt64 := UInt64.ofNat <$> unsigned 64

/-- An RFC 3339 timestamp in a string. -/
def timestamp : Reader Time.Timestamp := do
  match Time.Timestamp.ofText? (← textFor .timestamp) with
  | .ok t => pure t
  | .error fault => throw (.badTimestamp fault)

/-- `null` or a value. -/
def nullable {α : Type} (read : Reader α) : Reader (Option α) := do
  match ← peekPastSpaces with
  | some 'n' =>
    word ['n', 'u', 'l', 'l']
    pure none
  | _ => some <$> read

/-- Whether a list goes on; the comma before an item is taken. -/
def moreItems (first : Bool) : Reader Bool := do
  match ← peekPastSpaces with
  | none => throw .endInList
  | some c =>
    if c = ']' then pure false
    else if first then pure true
    else if c = ',' then
      skip
      match ← peekPastSpaces with
      | none => throw .endInValue
      | some d => if d = ']' then throw .trailingComma else pure true
    else throw .expectedListComma

def endList : Reader Unit := do
  match ← peekPastSpaces with
  | none => throw .endInList
  | some c =>
    if c = ']' then skip
    else if c = ',' then
      skip
      if (← peekPastSpaces) = some ']' then throw .trailingComma else throw .trailingCharacters
    else throw .trailingCharacters

/-- The items of a list whose opening mark has been taken, after those read before, last first. -/
def itemsFrom {α : Type} (item : Reader α) : Nat → List α → Reader (List α)
  | 0, _ => throw .endInList
  | fuel + 1, before => do
    if ← moreItems before.isEmpty then itemsFrom item fuel ((← item) :: before)
    else pure before.reverse

def list {α : Type} (item : Reader α) : Reader (List α) :=
  expecting .sequence fun c => if c = '[' then some do
    skip
    let s ← get
    let items ← itemsFrom item (s.length + 1) []
    endList
    pure items
  else none

/-- Whether an object goes on; the comma before a name and the opening quote are taken. -/
def moreMembers (first : Bool) : Reader Bool := do
  match ← peekPastSpaces with
  | none => throw .endInObject
  | some c =>
    if c = '\x7d' then pure false
    else if first then
      if c = '"' then
        skip
        pure true
      else throw .keyNotString
    else if c = ',' then
      skip
      match ← peekPastSpaces with
      | none => throw .endInValue
      | some d =>
        if d = '"' then
          skip
          pure true
        else if d = '\x7d' then throw .trailingComma
        else throw .keyNotString
    else throw .expectedObjectComma

/-- The colon after a name. -/
def colon : Reader Unit := do
  match ← peekPastSpaces with
  | none => throw .endInObject
  | some c => if c = ':' then skip else throw .expectedColon

end Reader

/-- What becomes of a field that is not given: a fault, a null, or the value that blank records
have.  A list must give fields that are required and fields that may be null. -/
inductive Presence
  | required
  | nullable
  | defaulted
deriving Repr, DecidableEq, Inhabited

/-- A field of a record: its name, and how its value changes the record read so far. -/
structure Field (α : Type) where
  name : String
  presence : Presence
  read : Reader (α → α)

namespace Field

/-- A field with its reader and its place in the record. -/
def of {α β : Type} (name : String) (presence : Presence) (read : Reader β) (put : β → α → α) :
    Field α :=
  ⟨name, presence, put <$> read⟩

end Field

/-- The form of a record: its name in messages, the record before any field is read, and the
fields. -/
structure Shape (α : Type) where
  name : String
  blank : α
  fields : List (Field α)

namespace Shape

variable {α : Type}

def field? (shape : Shape α) (name : List Char) : Option (Field α) :=
  shape.fields.find? fun f => f.name.toList = name

/-- The fields of the list still to come, given the record so far. -/
def readListed (shape : Shape α) (first : Bool) (acc : α) : List (Field α) → Reader α
  | [] => pure acc
  | f :: fs => do
    if ← Reader.moreItems first then readListed shape false ((← f.read) acc) fs
    else if (f :: fs).all (·.presence = .defaulted) then pure acc
    else
      let given := shape.fields.length - (f :: fs).length +
        ((f :: fs).takeWhile (·.presence = .defaulted)).length
      throw (.wrongLength given shape.name shape.fields.length)

/-- The members of an object up to its end, given the names already met and the record so far. -/
def readMembers (shape : Shape α) : Nat → Bool → List String → α → Reader (List String × α)
  | 0, _, _, _ => throw .endInObject
  | fuel + 1, first, met, acc => do
    if ← Reader.moreMembers first then
      match shape.field? (← Reader.stringBody) with
      | none =>
        Reader.colon
        Reader.skipValue
        readMembers shape fuel false met acc
      | some f =>
        if f.name ∈ met then throw (.duplicateField f.name)
        Reader.colon
        let change ← f.read
        readMembers shape fuel false (f.name :: met) (change acc)
    else
      Reader.skip
      pure (met, acc)

/-- The first required field that is not among the names met. -/
def missing? (shape : Shape α) (met : List String) : Option (Field α) :=
  shape.fields.find? fun f => f.presence = .required && f.name ∉ met

def read (shape : Shape α) : Reader α :=
  Reader.expecting (.record shape.name) fun c =>
    if c = '[' then some do
      Reader.skip
      let record ← shape.readListed true shape.blank shape.fields
      Reader.endList
      pure record
    else if c = '\x7b' then some do
      Reader.skip
      let s ← get
      let (met, record) ← shape.readMembers (s.length + 1) true [] shape.blank
      match shape.missing? met with
      | some f => throw (.missingField f.name)
      | none => pure record
    else none

end Shape

/-- The value that a whole text is. -/
def decode {α : Type} (read : Reader α) (s : List Char) : Except Fault α := do
  let (value, rest) ← read.run s
  if rest.all isSpace then pure value else .error .trailingCharacters

end AlarmBridge.Json
