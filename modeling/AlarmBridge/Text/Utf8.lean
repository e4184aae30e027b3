/-! Bytes read as UTF-8.  `decodeParts` gives a character or a malformed part at a time, a malformed
part being the longest start of a well-formed sequence; `decode` refuses malformed parts and
`decodeLossy` shows each as the replacement character. -/

set_option autoImplicit false

namespace AlarmBridge

/-- Bytes as processes write them and files hold them. -/
abbrev Bytes := List UInt8

namespace Text

/-- The range of an ordinary continuation byte. -/
def continuation : Nat × Nat := (0x80, 0xBF)

/-- What a lead byte says: the high bits of the code point and the ranges of the bytes that
follow. -/
def lead? (b : Nat) : Option (Nat × List (Nat × Nat)) :=
  if b < 0x80 then some (b, [])
  else if b < 0xC2 then none
  else if b < 0xE0 then some (b - 0xC0, [continuation])
  else if b = 0xE0 then some (0, [(0xA0, 0xBF), continuation])
  else if b = 0xED then some (0x0D, [(0x80, 0x9F), continuation])
  else if b < 0xF0 then some (b - 0xE0, [continuation, continuation])
  else if b = 0xF0 then some (0, [(0x90, 0xBF), continuation, continuation])
  else if b < 0xF4 then some (b - 0xF0, [continuation, continuation, continuation])
  else if b = 0xF4 then some (4, [(0x80, 0x8F), continuation, continuation])
  else none

/-- A byte that begins a sequence: the part it completes at once, or the sequence it leaves open. -/
def beginSequence (b : Nat) : List (Option Char) × Option (Nat × List (Nat × Nat)) :=
  match lead? b with
  | none => ([none], none)
  | some (code, []) => ([some (Char.ofNat code)], none)
  | some (code, ranges) => ([], some (code, ranges))

/-- A byte met while `pending` is open. -/
def feedByte (pending : Option (Nat × List (Nat × Nat))) (b : Nat) :
    List (Option Char) × Option (Nat × List (Nat × Nat)) :=
  match pending with
  | none => beginSequence b
  | some (_, []) => beginSequence b
  | some (code, (lo, hi) :: ranges) =>
    if lo ≤ b ∧ b ≤ hi then
      let code := code * 64 + (b - 0x80)
      match ranges with
      | [] => ([some (Char.ofNat code)], none)
      | _ => ([], some (code, ranges))
    else
      let next := beginSequence b
      (none :: next.1, next.2)

/-- The characters and the malformed parts of some bytes, in order. -/
def decodeParts (bs : Bytes) : List (Option Char) :=
  let step (state : List (Option Char) × Option (Nat × List (Nat × Nat))) (b : UInt8) :=
    let next := feedByte state.2 b.toNat
    (next.1.reverse ++ state.1, next.2)
  let last := bs.foldl step ([], none)
  (if last.2.isSome then none :: last.1 else last.1).reverse

/-- The text of some bytes, if they are well-formed. -/
def decode (bs : Bytes) : Option (List Char) := (decodeParts bs).mapM id

/-- The text of some bytes, each malformed part replaced. -/
def decodeLossy (bs : Bytes) : List Char := (decodeParts bs).map (·.getD '\uFFFD')

def encode (s : List Char) : Bytes := s.flatMap String.utf8EncodeChar

end Text

end AlarmBridge
