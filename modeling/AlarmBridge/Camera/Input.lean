/-! What a camera's video is read from: its address and a bearer token, as the arguments of a
process and as one line for a shell. -/

set_option autoImplicit false

namespace AlarmBridge

/-- The address of a video and the token that opens it. -/
structure StreamInput where
  url : String
  token : String
deriving Repr, DecidableEq, Inhabited

namespace StreamInput

def args (i : StreamInput) : List String :=
  ["-re", "-headers", s!"Authorization: Bearer {i.token}", "-i", i.url]

/-- An input in one line, with the header and the address between double quotes. -/
def describe (i : StreamInput) : String :=
  s!"-re -headers \"Authorization: Bearer {i.token}\" -i \"{i.url}\""

end StreamInput

end AlarmBridge
