import AlarmBridge.Environment
import AlarmBridge.Proofs.Trimming

/-! Writing a `.env` file and reading it.  A value that is written between quotes, or as it is where
it has neither blanks nor quotes around it, is read back, whatever blanks stand around it and its
key and whatever lines that set no variable stand between. -/

set_option autoImplicit false

namespace AlarmBridge.Dotenv

open Text (AllBlank allBlank_nil trim trimStart trimEnd)

theorem splitAtFirst_append {c : Char} {s : List Char} (h : c ∉ s) (t : List Char) :
    splitAtFirst c (s ++ c :: t) = some (s, t) := by
  have hs : ∀ d ∈ s, decide (d ≠ c) = true := fun d hd => decide_eq_true fun hdc => h (hdc ▸ hd)
  unfold splitAtFirst
  rw [List.dropWhile_append_of_pos hs, List.takeWhile_append_of_pos hs]
  simp

theorem splitAtFirst_of_not_mem {c : Char} {s : List Char} (h : c ∉ s) :
    splitAtFirst c s = none := by
  have hs : s.dropWhile (fun d => decide (d ≠ c)) = [] :=
    List.dropWhile_eq_nil_iff.mpr fun d hd => decide_eq_true fun hdc => h (hdc ▸ hd)
  unfold splitAtFirst
  rw [hs]

/-- A line that has an equals sign is taken apart at the first one. -/
theorem entry?_append {s : List Char} (h : '=' ∉ s) (t : List Char) :
    entry? (s ++ '=' :: t) =
      if (trimStart s).head? = some '#' then none
      else some (String.ofList (trim s), String.ofList (unquote (trim t))) := by
  have hstart : '=' ∉ trimStart s := fun hmem => h (List.dropWhile_subset _ hmem)
  have hhead : (trimStart s ++ '=' :: trimEnd t).head? = some '#' ↔
      (trimStart s).head? = some '#' := by
    cases trimStart s with
    | nil => simp
    | cons c s => simp
  unfold entry?
  simp only [Text.trim_append_cons (c := '=') rfl, hhead, splitAtFirst_append hstart,
    Option.map_some, Text.trim_trimStart, Text.trim_trimEnd]
  simp

theorem entry?_of_not_mem {s : List Char} (h : '=' ∉ s) : entry? s = none := by
  have htrim : '=' ∉ trim s := fun hmem =>
    h (List.dropWhile_subset _ ((List.rdropWhile_prefix _ _).subset hmem))
  unfold entry?
  simp only [splitAtFirst_of_not_mem htrim]
  split <;> rfl

theorem entry?_comment {b : List Char} (h : AllBlank b) (s : List Char) :
    entry? (b ++ '#' :: s) = none := by
  unfold entry?
  simp only [Text.trim_append_cons (c := '#') rfl, Text.trimStart_of_allBlank h]
  simp

theorem entry?_congr {s t : List Char} (h : trim s = trim t) : entry? s = entry? t := by
  unfold entry?
  rw [h]

def IsQuote (c : Char) : Prop := c = '"' ∨ c = '\''

/-- The text stands between two of the same quotes. -/
def Enclosed (s : List Char) : Prop := ∃ q v, IsQuote q ∧ s = q :: (v ++ [q])

theorem unquote_quoted {q : Char} (h : IsQuote q) (v : List Char) :
    unquote (q :: (v ++ [q])) = v := by
  have hquote : q = '"' ∨ q = '\'' := h
  simp [unquote, hquote]

theorem unquote_of_not_enclosed {v : List Char} (h : ¬Enclosed v) : unquote v = v := by
  cases v with
  | nil => rfl
  | cons q rest =>
    unfold unquote
    split
    · next s hs =>
      cases hs
    · next c s hs =>
      obtain ⟨rfl, rfl⟩ := List.cons.inj hs
      split
      · next hquoted =>
        exact absurd ⟨q, rest.dropLast, hquoted.1,
          congrArg (q :: ·) (List.dropLast_append_getLast? _ hquoted.2).symm⟩ h
      · rfl

/-- How a value may be written in a line: between quotes, or as it is if that is not taken for
something else. -/
inductive ValueText (v : List Char) : List Char → Prop
  | quoted {q : Char} (hq : IsQuote q) : ValueText v (q :: (v ++ [q]))
  | plain (htrim : trim v = v) (hplain : ¬Enclosed v) : ValueText v v

theorem trim_quoted {q : Char} (h : IsQuote q) (v : List Char) :
    trim (q :: (v ++ [q])) = q :: (v ++ [q]) := by
  have hq : Text.isBlank q = false := by rcases h with rfl | rfl <;> rfl
  have hend : trimEnd ((q :: v) ++ [q]) = (q :: v) ++ [q] := Text.trimEnd_append_cons hq (q :: v) []
  have hstart : trimStart ([] ++ q :: (v ++ [q])) = q :: (v ++ [q]) :=
    Text.trimStart_append_cons hq [] _
  rw [← Text.trimStart_trimEnd, ← List.cons_append, hend]
  exact hstart

/-- A value is read from any way to write it. -/
theorem ValueText.unquote_trim {v w : List Char} (h : ValueText v w) : unquote (trim w) = v := by
  cases h with
  | quoted hq => rw [trim_quoted hq, unquote_quoted hq]
  | plain htrim hplain => rw [htrim, unquote_of_not_enclosed hplain]

/-- A key that can stand in a line: no blanks around it, no number sign in front, no equals sign in
it. -/
structure PlainKey (k : String) : Prop where
  trimmed : trim k.toList = k.toList
  uncommented : k.toList.head? ≠ some '#'
  whole : '=' ∉ k.toList

/-- The lines for a variable, and those for none: comments, and lines without an equals sign such as
blank ones. -/
inductive LineText : Option (String × String) → List Char → Prop
  | entry {k v : String} {a b c d w : List Char} (hk : PlainKey k) (ha : AllBlank a)
      (hb : AllBlank b) (hc : AllBlank c) (hd : AllBlank d) (hv : ValueText v.toList w) :
      LineText (some (k, v)) (a ++ k.toList ++ b ++ '=' :: (c ++ w ++ d))
  | comment {a : List Char} (ha : AllBlank a) (s : List Char) : LineText none (a ++ '#' :: s)
  | other {s : List Char} (h : '=' ∉ s) : LineText none s

theorem not_mem_of_allBlank {s : List Char} (h : AllBlank s) {c : Char}
    (hc : Text.isBlank c = false) :
    c ∉ s := by
  intro hmem
  rw [h c hmem] at hc
  cases hc

theorem PlainKey.head?_trimStart_ne {k : String} (h : PlainKey k) {a b : List Char}
    (ha : AllBlank a) (hb : AllBlank b) : (trimStart (a ++ k.toList ++ b)).head? ≠ some '#' := by
  have hstart : k.toList.dropWhile Text.isBlank = k.toList := Text.trimStart_of_trim_eq h.trimmed
  have hblank : b.dropWhile Text.isBlank = [] := Text.trimStart_of_allBlank hb
  have hkey : (k.toList ++ b).dropWhile Text.isBlank =
      if k.toList.isEmpty then [] else k.toList ++ b := by
    rw [List.dropWhile_append, hstart, hblank]
  rw [List.append_assoc, Text.trimStart_append_of_allBlank ha, trimStart, hkey]
  cases hchars : k.toList with
  | nil => simp
  | cons c k =>
    have hhead := h.uncommented
    rw [hchars] at hhead
    exact hhead

theorem LineText.entry?_eq {e : Option (String × String)} {line : List Char} (h : LineText e line) :
    entry? line = e := by
  cases h with
  | @entry k v a b c d w hk ha hb hc hd hv =>
    have hequals : '=' ∉ a ++ k.toList ++ b := by
      simp only [List.mem_append, not_or]
      exact ⟨⟨not_mem_of_allBlank ha rfl, hk.whole⟩, not_mem_of_allBlank hb rfl⟩
    rw [entry?_append hequals, if_neg (hk.head?_trimStart_ne ha hb), Text.trim_padded ha hb,
      Text.trim_padded hc hd, hk.trimmed, hv.unquote_trim, String.ofList_toList,
      String.ofList_toList]
  | comment ha s => exact entry?_comment ha s
  | other h => exact entry?_of_not_mem h

/-- The text of a file: its lines, each but perhaps the last with a line feed at its end, and the
variables that they are for, in order. -/
inductive FileText : List (String × String) → List Char → Prop
  | last {e : Option (String × String)} {line : List Char} (h : LineText e line)
      (hline : '\n' ∉ line) :
      FileText e.toList line
  | line {e : Option (String × String)} {es : List (String × String)} {line rest : List Char}
      (h : LineText e line) (hline : '\n' ∉ line) (hrest : FileText es rest) :
      FileText (e.toList ++ es) (line ++ '\n' :: rest)

theorem FileText.entries_eq {es : List (String × String)} {content : List Char}
    (h : FileText es content) :
    entries content = es := by
  induction h with
  | @last e line h hline =>
    unfold entries
    rw [Text.lines_of_not_mem hline]
    have hentry := h.entry?_eq
    cases line with
    | nil =>
      obtain rfl : none = e := hentry
      rfl
    | cons c line =>
      rw [List.isEmpty_cons, if_neg (by decide), List.filterMap_cons, hentry]
      cases e <;> rfl
  | @line e es line rest h hline _ ih =>
    unfold entries at ih ⊢
    rw [Text.lines_append hline, List.filterMap_cons, entry?_congr (Text.trim_dropReturn line),
      h.entry?_eq, ih]
    cases e <;> rfl

/-- The lines that set variables to values between quotes. -/
def quotedLines (q : Char) (es : List (String × String)) : List Char :=
  es.flatMap fun e => e.1.toList ++ '=' :: q :: (e.2.toList ++ [q, '\n'])

/-- Reading a file undoes writing it: every way to write variables with plain keys and values on one
line each is read as these variables, in order.  Among these ways are lines with quotes, which can
be written for any values, whatever blanks, quotes or signs they hold. -/
theorem reading_undoes_quoting :
    (∀ (es : List (String × String)) (content : List Char), FileText es content →
      entries content = es) ∧
    ∀ (q : Char) (es : List (String × String)), IsQuote q →
      (∀ e ∈ es, PlainKey e.1 ∧ '\n' ∉ e.1.toList ∧ '\n' ∉ e.2.toList) →
      FileText es (quotedLines q es) := by
  refine ⟨fun es content h => h.entries_eq, fun q es hq hes => ?_⟩
  induction es with
  | nil =>
    have hempty : LineText none [] := .other List.not_mem_nil
    exact .last hempty List.not_mem_nil
  | cons e es ih =>
    obtain ⟨hkey, hline, hvalue⟩ := hes e List.mem_cons_self
    have hquote : '\n' ≠ q := by rcases hq with rfl | rfl <;> decide
    have hentry := LineText.entry hkey allBlank_nil allBlank_nil allBlank_nil
      allBlank_nil (.quoted (v := e.2.toList) hq)
    have hrest := ih fun e he => hes e (List.mem_cons_of_mem _ he)
    have hfile := FileText.line hentry (by simp [hline, hvalue, hquote]) hrest
    have htext : quotedLines q (e :: es) =
        [] ++ e.1.toList ++ [] ++ '=' :: ([] ++ q :: (e.2.toList ++ [q]) ++ []) ++
          '\n' :: quotedLines q es := by
      simp [quotedLines]
    rw [htext]
    exact hfile

/-- A file with a comment, a blank line, a line that sets nothing, and values that hold quotes and
signs. -/
def noisyFile : List Char :=
  "# names = \r\n\r\n NAME = \"A \"B\" #2 \" \r\nnothing\nSIGN='='\nQUOTE\t= \"\nC=d = e'".toList

theorem reading_undoes_quoting_noisyFile :
    FileText [("NAME", "A \"B\" #2 "), ("SIGN", "="), ("QUOTE", "\""), ("C", "d = e'")] noisyFile ∧
      entries noisyFile =
        [("NAME", "A \"B\" #2 "), ("SIGN", "="), ("QUOTE", "\""), ("C", "d = e'")] := by
  have hkey : ∀ k ∈ ["NAME", "SIGN", "QUOTE", "C"], PlainKey k := by
    have hall : ∀ k ∈ ["NAME", "SIGN", "QUOTE", "C"],
        trim k.toList = k.toList ∧ k.toList.head? ≠ some '#' ∧ '=' ∉ k.toList := by decide +kernel
    exact fun k hk => ⟨(hall k hk).1, (hall k hk).2.1, (hall k hk).2.2⟩
  have hquote : ¬Enclosed "\"".toList := by
    rintro ⟨q, v, -, h⟩
    exact absurd (congrArg List.length h) (by simp)
  have hplain : ¬Enclosed "d = e'".toList := by
    rintro ⟨q, v, hq, h⟩
    have hhead : 'd' = q := (List.cons.inj h).1
    rcases hq with rfl | rfl
    · exact absurd hhead (by decide)
    · exact absurd hhead (by decide)
  have hspace : AllBlank [' '] := by decide +kernel
  have htab : AllBlank ['\t'] := by decide +kernel
  have hend : AllBlank [' ', '\r'] := by decide +kernel
  have hname : LineText (some ("NAME", "A \"B\" #2 ")) " NAME = \"A \"B\" #2 \" \r".toList :=
    .entry (hkey "NAME" (by simp)) hspace hspace hspace hend (.quoted (q := '"') (.inl rfl))
  have hsign : LineText (some ("SIGN", "=")) "SIGN='='".toList :=
    .entry (hkey "SIGN" (by simp)) allBlank_nil allBlank_nil allBlank_nil allBlank_nil
      (.quoted (q := '\'') (.inr rfl))
  have hlone : LineText (some ("QUOTE", "\"")) "QUOTE\t= \"".toList :=
    .entry (hkey "QUOTE" (by simp)) allBlank_nil htab hspace allBlank_nil
      (.plain (by decide +kernel) hquote)
  have hbare : LineText (some ("C", "d = e'")) "C=d = e'".toList :=
    .entry (hkey "C" (by simp)) allBlank_nil allBlank_nil allBlank_nil allBlank_nil
      (.plain (by decide +kernel) hplain)
  have hcomment : LineText none "# names = \r".toList := .comment allBlank_nil " names = \r".toList
  have hreturn : LineText none ['\r'] := .other (by decide +kernel)
  have hnothing : LineText none "nothing".toList := .other (by decide +kernel)
  have hfile : FileText
      [("NAME", "A \"B\" #2 "), ("SIGN", "="), ("QUOTE", "\""), ("C", "d = e'")] noisyFile :=
    .line hcomment (by decide +kernel) <| .line hreturn (by decide +kernel) <|
    .line hname (by decide +kernel) <| .line hnothing (by decide +kernel) <|
    .line hsign (by decide +kernel) <| .line hlone (by decide +kernel) <|
    .last hbare (by decide +kernel)
  exact ⟨hfile, reading_undoes_quoting.1 _ _ hfile⟩

end AlarmBridge.Dotenv
