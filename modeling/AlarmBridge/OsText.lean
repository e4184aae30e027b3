import AlarmBridge.Text.Utf8

/-! Texts as the operating system holds them: the names and values of variables, and paths.  They
are bytes and may be no UTF-8. -/

set_option autoImplicit false

namespace AlarmBridge

structure OsText where
  bytes : Bytes
deriving Repr, DecidableEq, Inhabited

namespace OsText

instance : Ord OsText := ⟨compareOn OsText.bytes⟩

instance : Std.TransOrd OsText := inferInstanceAs (Std.TransCmp (compareOn OsText.bytes))

instance : Std.LawfulEqOrd OsText where
  eq_of_compare {a b} h := by
    have hbytes : compare a.bytes b.bytes = .eq := h
    cases a
    cases b
    exact congrArg mk (Std.LawfulEqOrd.eq_of_compare hbytes)

def ofString (s : String) : OsText := ⟨Text.encode s.toList⟩

/-- The text as Unicode, if it is well-formed UTF-8. -/
def text? (t : OsText) : Option String := (Text.decode t.bytes).map String.ofList

/-- The text as it is shown, each malformed part replaced. -/
def shown (t : OsText) : String := String.ofList (Text.decodeLossy t.bytes)

def isEmpty (t : OsText) : Bool := t.bytes.isEmpty

/-- The byte between the names of a path. -/
def slash : UInt8 := 0x2F

/-- Whether a path starts at the root. -/
def isAbsolute (path : OsText) : Bool := path.bytes.head? = some slash

/-- A path with one more name. -/
def join (path : OsText) (name : String) : OsText :=
  let name := Text.encode name.toList
  if path.isEmpty then ⟨name⟩
  else if path.bytes.getLast? = some slash then ⟨path.bytes ++ name⟩
  else ⟨path.bytes ++ slash :: name⟩

/-- What stands between the occurrences of a byte. -/
def splitAt (separator : UInt8) (t : OsText) : List OsText :=
  t.bytes.foldr (fun b parts =>
    if b = separator then ⟨[]⟩ :: parts
    else ⟨b :: (parts.headD ⟨[]⟩).bytes⟩ :: parts.tail) [⟨[]⟩]

/-- The names in a path. -/
def names (path : OsText) : List OsText := path.splitAt slash

end OsText

end AlarmBridge
