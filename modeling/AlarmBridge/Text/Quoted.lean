import AlarmBridge.Text.Printable

/-! A text between double quotes, as messages show it: a quote and a backslash take a backslash, the
usual control characters their letter, and what cannot be shown its code point in braces. -/

set_option autoImplicit false

namespace AlarmBridge.Text

/-- The digits of a number to the base sixteen, lower case. -/
def hexDigits (n : Nat) : List Char := Nat.toDigits 16 n

/-- One character as a quoted text shows it. -/
def showChar (c : Char) : List Char :=
  if c = '"' then ['\\', '"']
  else if c = '\\' then ['\\', '\\']
  else if c = '\t' then ['\\', 't']
  else if c = '\r' then ['\\', 'r']
  else if c = '\n' then ['\\', 'n']
  else if c.toNat = 0 then ['\\', '0']
  else if extendsGrapheme c || !isPrintable c then
    ['\\', 'u', '\x7b'] ++ hexDigits c.toNat ++ ['\x7d']
  else [c]

/-- A text between double quotes, with what cannot be shown escaped. -/
def quoted (s : List Char) : List Char := '"' :: (s.flatMap showChar ++ ['"'])

end AlarmBridge.Text
