import AlarmBridge.Log
import AlarmBridge.Log.Pattern

/-! Which log records are shown.  A filter is a list of levels, each for all parts of the program or
for those whose path begins with a name, where the longest name that fits decides, and may have a
pattern that the texts shown must contain. -/

set_option autoImplicit false

namespace AlarmBridge.Log

/-- The level up to which the parts under a name speak; the empty name stands for all parts, and no
level for silence. -/
structure Directive where
  name : List Char
  level : Option Level
deriving Repr, DecidableEq, Inhabited

/-- The level of a name, in any case of its letters; `off` is no level. -/
def Level.ofName? (s : List Char) : Option (Option Level) :=
  let s := s.map Char.toUpper
  if s = "OFF".toList then some none
  else ([Level.error, .warn, .info, .debug, .trace].find? fun l => l.name.toList = s).map some

namespace Directive

/-- The directive that one item of a filter is. -/
def ofItem? (item : List Char) : Option Directive :=
  let item := Text.trim item
  let name := item.takeWhile (· ≠ '=')
  if item.isEmpty then none
  else
    match item.drop name.length with
    | [] =>
      match Level.ofName? name with
      | some level => some ⟨[], level⟩
      | none => some ⟨name, some .trace⟩
    | _ :: rest =>
      if rest.contains '=' then none
      else if (Text.trim rest).isEmpty then some ⟨name, some .trace⟩
      else (Level.ofName? (Text.trim rest)).map fun level => ⟨name, level⟩

/-- A list of directives with one more, in the place of one for the same name. -/
def put (ds : List Directive) (d : Directive) : List Directive :=
  if ds.any (·.name = d.name) then ds.map fun e => if e.name = d.name then d else e
  else ds ++ [d]

end Directive

/-- Which records are shown: those that the directives let through, and of them only those in whose
text the pattern occurs, if there is one. -/
structure Filter where
  directives : List Directive
  pattern : Option Pattern
deriving Repr, DecidableEq, Inhabited

namespace Filter

/-- The directives of a list of items; a list without any shows errors only. -/
def directivesOf (items : List Char) : List Directive :=
  let ds := ((items.splitOn ',').filterMap Directive.ofItem?).foldl Directive.put []
  if ds.isEmpty then [⟨[], some .error⟩] else ds

/-- The filter that a text is: directives and, after a slash, a pattern, which is left out if it
cannot be read.  A text with more slashes has no directives. -/
def ofText (s : String) : Filter :=
  match s.toList.splitOn '/' with
  | [items] => ⟨directivesOf items, none⟩
  | [items, pattern] => ⟨directivesOf items, Pattern.ofText? pattern⟩
  | _ => ⟨directivesOf [], none⟩

/-- The directive that decides on a part of the program. -/
def deciding? (f : Filter) (source : Source) : Option Directive :=
  let fitting := f.directives.filter fun d => d.name.isPrefixOf source.path.toList
  fitting.find? fun d => fitting.all fun e => e.name.length ≤ d.name.length

def shows (f : Filter) (r : Record) : Bool :=
  (((f.deciding? r.source).bind (·.level)).any fun level => r.level.rank ≤ level.rank) &&
    f.pattern.all fun p => p.occursIn r.text

end Filter

end AlarmBridge.Log
