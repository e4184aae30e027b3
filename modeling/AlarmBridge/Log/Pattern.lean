import AlarmBridge.Text.Blank

/-! Patterns of texts: characters and sets of them, groups, choices, repetitions, and the two ends
of a text.  `Pattern.ofText?` reads a pattern as it is written, and `Pattern.occursIn` looks for it
anywhere in a text. -/

set_option autoImplicit false

namespace AlarmBridge.Log

/-- The characters in some ranges, or all others. -/
structure CharSet where
  ranges : List (Char × Char)
  negated : Bool
deriving Repr, DecidableEq, Inhabited

namespace CharSet

def contains (s : CharSet) (c : Char) : Bool :=
  (s.ranges.any fun r => r.1 ≤ c && c ≤ r.2) != s.negated

def single (c : Char) : CharSet := ⟨[(c, c)], false⟩

def anyButLineFeed : CharSet := ⟨[('\n', '\n')], true⟩

def digits : CharSet := ⟨[('0', '9')], false⟩

/-- The letters and digits of ASCII and the underscore. -/
def wordChars : CharSet := ⟨[('0', '9'), ('A', 'Z'), ('_', '_'), ('a', 'z')], false⟩

/-- The characters with the property White_Space. -/
def blanks : CharSet :=
  ⟨[('\t', '\r'), (' ', ' '), ('\u0085', '\u0085'), ('\u00A0', '\u00A0'), ('\u1680', '\u1680'),
    ('\u2000', '\u200A'), ('\u2028', '\u2029'), ('\u202F', '\u202F'), ('\u205F', '\u205F'),
    ('\u3000', '\u3000')], false⟩

def complement (s : CharSet) : CharSet := { s with negated := !s.negated }

/-- What a letter or a mark after a backslash stands for. -/
def ofEscape? (c : Char) : Option CharSet :=
  match c with
  | 'd' => some digits
  | 'D' => some digits.complement
  | 's' => some blanks
  | 'S' => some blanks.complement
  | 'w' => some wordChars
  | 'W' => some wordChars.complement
  | 'n' => some (single '\n')
  | 'r' => some (single '\r')
  | 't' => some (single '\t')
  | _ => if '!' ≤ c && c ≤ '~' && !c.isAlphanum && c ≠ '<' && c ≠ '>' then some (single c) else none

/-- The ranges of a set up to its closing bracket, after those before, and what follows the
bracket. -/
def rangesFrom (before : List (Char × Char)) :
    List Char → Option (List (Char × Char) × List Char)
  | [] => none
  | ']' :: rest => some (before, rest)
  | '[' :: _ => none
  | '\\' :: c :: rest =>
    match ofEscape? c with
    | some ⟨ranges, false⟩ => rangesFrom (before ++ ranges) rest
    | _ => none
  | a :: '-' :: ']' :: rest => some (before ++ [(a, a), ('-', '-')], rest)
  | a :: '-' :: b :: rest =>
    if b = '[' ∨ b = '\\' ∨ b < a then none else rangesFrom (before ++ [(a, b)]) rest
  | a :: rest => rangesFrom (before ++ [(a, a)]) rest

/-- The set whose opening bracket has been taken, and what follows it. -/
def read? (s : List Char) : Option (CharSet × List Char) :=
  let (negated, s) := match s with
    | '^' :: rest => (true, rest)
    | s => (false, s)
  let (before, s) := match s with
    | ']' :: rest => ([(']', ']')], rest)
    | s => ([], s)
  (rangesFrom before s).map fun (ranges, rest) => (⟨ranges, negated⟩, rest)

end CharSet

inductive Pattern
  | nothing
  | one (set : CharSet)
  | start
  | finish
  | both (first second : Pattern)
  | either (left right : Pattern)
  | many (item : Pattern)
deriving Repr, DecidableEq, Inhabited

namespace Pattern

/-- A place in a text: whether it is the first, and what follows it. -/
structure Place where
  first : Bool
  rest : List Char
deriving Repr, DecidableEq, Inhabited

/-- The places reached in up to the given number of steps that each leave less to follow. -/
def reach (step : Place → List Place) : Nat → List Place → List Place
  | 0, places => places
  | n + 1, places =>
    places ++ reach step n
      (places.flatMap fun p => (step p).filter fun q => q.rest.length < p.rest.length).eraseDups

/-- The places where a match from a place can end. -/
def ends : Pattern → Place → List Place
  | nothing, p => [p]
  | one set, p =>
    match p.rest with
    | [] => []
    | c :: rest => if set.contains c then [⟨false, rest⟩] else []
  | start, p => if p.first then [p] else []
  | finish, p => if p.rest.isEmpty then [p] else []
  | both a b, p => (a.ends p).flatMap b.ends
  | either a b, p => a.ends p ++ b.ends p
  | many a, p => reach a.ends p.rest.length [p]

/-- Whether a pattern matches from a place or from a later one. -/
def occursFrom (pattern : Pattern) (first : Bool) : List Char → Bool
  | [] => !(pattern.ends ⟨first, []⟩).isEmpty
  | c :: rest => !(pattern.ends ⟨first, c :: rest⟩).isEmpty || pattern.occursFrom false rest

/-- Whether a pattern matches a part of a text. -/
def occursIn (pattern : Pattern) (text : String) : Bool := pattern.occursFrom true text.toList

def inOrder : List Pattern → Pattern
  | [] => nothing
  | p :: ps => both p (inOrder ps)

/-- A pattern a number of times, at most so many more, or any number more. -/
def times (p : Pattern) (least : Nat) (more : Option Nat) : Pattern :=
  let rest := match more with
    | none => many p
    | some n => inOrder (List.replicate n (either p nothing))
  both (inOrder (List.replicate least p)) rest

end Pattern

/-- A part of a written pattern. -/
inductive Token
  | item (p : Pattern)
  | opened
  | closed
  | choice
  | repeated (least : Nat) (more : Option Nat)
deriving Repr, DecidableEq, Inhabited

namespace Token

/-- The largest number of repetitions that is read. -/
def maxCount : Nat := 1000

/-- The bounds between braces whose opening one has been taken, and what follows them. -/
def readBounds? (s : List Char) : Option (Token × List Char) :=
  let digits := s.takeWhile Char.isDigit
  let number (ds : List Char) : Option Nat :=
    if ds.isEmpty then none else (String.ofList ds).toNat?.filter (· ≤ maxCount)
  (number digits).bind fun least =>
    match s.drop digits.length with
    | '\x7d' :: rest => some (repeated least (some 0), rest)
    | ',' :: '\x7d' :: rest => some (repeated least none, rest)
    | ',' :: rest =>
      let digits := rest.takeWhile Char.isDigit
      (number digits).bind fun most =>
        match rest.drop digits.length with
        | '\x7d' :: rest =>
          if most < least then none else some (repeated least (some (most - least)), rest)
        | _ => none
    | _ => none

/-- The part of a pattern that comes next, and what follows it. -/
def read? : List Char → Option (Token × List Char)
  | [] => none
  | '(' :: '?' :: ':' :: rest => some (opened, rest)
  | '(' :: '?' :: _ => none
  | '(' :: rest => some (opened, rest)
  | ')' :: rest => some (closed, rest)
  | '|' :: rest => some (choice, rest)
  | '*' :: rest => some (repeated 0 none, rest)
  | '+' :: rest => some (repeated 1 none, rest)
  | '?' :: rest => some (repeated 0 (some 1), rest)
  | '\x7b' :: rest => readBounds? rest
  | '[' :: rest => (CharSet.read? rest).map fun (set, rest) => (item (.one set), rest)
  | '.' :: rest => some (item (.one .anyButLineFeed), rest)
  | '^' :: rest | '\\' :: 'A' :: rest => some (item .start, rest)
  | '$' :: rest | '\\' :: 'z' :: rest => some (item .finish, rest)
  | '\\' :: c :: rest => (CharSet.ofEscape? c).map fun set => (item (.one set), rest)
  | ['\\'] => none
  | c :: rest => some (item (.one (.single c)), rest)

/-- What follows a repetition; a question mark there asks for short matches, which is all the same
to whether there is one. -/
def afterRepeated (token : Token) (rest : List Char) : List Char :=
  match token, rest with
  | repeated _ _, '?' :: rest => rest
  | _, rest => rest

/-- The parts of a written pattern. -/
def readAll? : Nat → List Char → Option (List Token)
  | _, [] => some []
  | 0, _ => none
  | fuel + 1, s =>
    (read? s).bind fun (token, rest) => (readAll? fuel (token.afterRepeated rest)).map (token :: ·)

end Token

/-- A group whose end has not been met: its choices before the last one, and what the last one has
so far, last first. -/
structure OpenGroup where
  choices : Option Pattern
  items : List Pattern

namespace OpenGroup

/-- A group of which nothing has been met. -/
def empty : OpenGroup := ⟨none, []⟩

/-- What a group is that ends here. -/
def pattern (g : OpenGroup) : Pattern :=
  let last := Pattern.inOrder g.items.reverse
  (g.choices.map fun p => .either p last).getD last

/-- The open groups after one more part, the innermost first. -/
def next : List OpenGroup → Token → Option (List OpenGroup)
  | [], _ => none
  | g :: gs, .item p => some ({ g with items := p :: g.items } :: gs)
  | gs, .opened => some (empty :: gs)
  | [_], .closed => none
  | g :: outer :: gs, .closed => some ({ outer with items := g.pattern :: outer.items } :: gs)
  | g :: gs, .choice => some (⟨some g.pattern, []⟩ :: gs)
  | ⟨choices, p :: items⟩ :: gs, .repeated least more =>
    some (⟨choices, p.times least more :: items⟩ :: gs)
  | ⟨_, []⟩ :: _, .repeated _ _ => none

end OpenGroup

def Pattern.ofText? (s : List Char) : Option Pattern :=
  (Token.readAll? s.length s).bind fun tokens =>
    match tokens.foldlM OpenGroup.next [.empty] with
    | some [g] => some g.pattern
    | _ => none

end AlarmBridge.Log
