/-! White space as the Unicode property White_Space lists it, trimming, and the lines of a text.
`trim` keeps what stands between the first and the last character that is not blank. -/

set_option autoImplicit false

namespace AlarmBridge.Text

/-- Whether a character has the Unicode property White_Space. -/
def isBlank (c : Char) : Bool :=
  let n := c.toNat
  (9 ≤ n && n ≤ 13) || n = 0x20 || n = 0x85 || n = 0xA0 || n = 0x1680 ||
    (0x2000 ≤ n && n ≤ 0x200A) || n = 0x2028 || n = 0x2029 || n = 0x202F || n = 0x205F || n = 0x3000

def trimStart (s : List Char) : List Char := s.dropWhile isBlank

def trimEnd (s : List Char) : List Char := (s.reverse.dropWhile isBlank).reverse

def trim (s : List Char) : List Char := trimEnd (trimStart s)

@[simp] theorem trim_nil : trim [] = [] := rfl

/-- A line without one carriage return at its end. -/
def dropReturn (s : List Char) : List Char :=
  if s.getLast? = some '\r' then s.dropLast else s

/-- The lines of a text given the part of its first line already read, last character first. -/
def linesFrom (start : List Char) : List Char → List (List Char)
  | [] => if start.isEmpty then [] else [start.reverse]
  | c :: s =>
    if c = '\n' then dropReturn start.reverse :: linesFrom [] s else linesFrom (c :: start) s

/-- The lines of a text: each ends at a line feed, with a carriage return before it or not, and a
text that ends in a line feed has no line after it. -/
def lines (s : List Char) : List (List Char) := linesFrom [] s

end AlarmBridge.Text
